import StoryPlayer.Formula.Library.Basic

/-!
# Functions on lists, maps and ranges

The functions that look at collections, and those that change maps.

- `Library.indexOf` looks for an item,
- `Library.collections` are the functions.
-/

namespace StoryPlayer
namespace Formula
namespace Library

/-! ## Searching -/

/-- Where a datum first occurs among items, counted from `index`. -/
def indexOf (d : Datum) : Nat → List Datum → Except Trouble (Option Nat)
  | _, [] => .ok none
  | index, item :: rest =>
    match Datum.same item d with
    | .ok true => .ok (some index)
    | .ok false => indexOf d (index + 1) rest
    | .error trouble => .error trouble

/-! ## Looking at collections -/

def len : Native
  | [.list items] => give (.int items.size)
  | [.map entries] => give (.int entries.length)
  | _ => none

def isEmpty : Native
  | [.list items] => give (.bool items.isEmpty)
  | [.map entries] => give (.bool entries.isEmpty)
  | [.range low high inclusive] => give (.bool (if inclusive then high < low else high ≤ low))
  | _ => none

/-- Whether a list has an item, a map a name, or a range a number. -/
def contains : Native
  | [.list items, d] => attempt ((indexOf d 0 items.toList).map fun found => .bool found.isSome)
  | [.map entries, .text name] => give (.bool (Dict.contains entries name))
  | [.range low high inclusive, .int n] =>
    give (.bool (low ≤ n && (if inclusive then n ≤ high else n < high)))
  | _ => none

def listIndexOf : Native
  | .list items :: d :: rest =>
    (start? items.size rest).bind fun start =>
      attempt ((indexOf d start (items.toList.drop start)).map fun
        | some index => .int index
        | none => .int (-1))
  | _ => none

/-! ## Maps -/

def keys : Native
  | [.map entries] => give (.ofList (entries.map fun entry => .text entry.1))
  | _ => none

def values : Native
  | [.map entries] => give (.ofList (entries.map Prod.snd))
  | _ => none

def mapRemove : Native
  | [.map entries, .text name] =>
    some (.ok (.both ((Dict.get? entries name).getD .unit) (.map (Dict.erase entries name))))
  | _ => none

def mapClear : Native
  | [.map _] => change (.map [])
  | _ => none

def collections : Library :=
  [("len", len), ("is_empty", isEmpty), ("contains", contains), ("index_of", listIndexOf),
    ("keys", keys), ("values", values), ("remove", mapRemove), ("clear", mapClear)]

end Library
end Formula
end StoryPlayer
