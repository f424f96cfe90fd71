import StoryPlayer.Formula.Library

/-!
# Parts of data

How formulas reach into lists, maps and texts.

- `Access` names a part of a datum,
- `Datum.part` finds a part, `Datum.withPart` replaces it,
- `Datum.withEntry` makes room for a new entry of a map,
- `Datum.withMade?` writes a character or a bit,
- `CaseKey.isDatum` and `CaseKey.isSpanOf` say which data a case of a selection takes.
-/

namespace StoryPlayer
namespace Formula

inductive Access
  | property (name : String)
  | index (d : Datum)

def Access.isIndex : Access → Bool
  | .index _ => true
  | .property _ => false

inductive Part
  /-- A part that lies in the datum. -/
  | inside (d : Datum)
  /-- A part that is made for the access and belongs to nothing. -/
  | made (d : Datum)

namespace Datum

def isMap : Datum → Bool
  | .map _ => true
  | _ => false

def isList : Datum → Bool
  | .list _ => true
  | _ => false

def entryName? : Access → Option String
  | .property name => some name
  | .index (.text name) => some name
  | .index _ => none

/-- The entry of a map; the unit stands for one that is missing. -/
def entry (entries : List (String × Datum)) (name : String) : Part :=
  match Dict.get? entries name with
  | some d => .inside d
  | none => .made .unit

def bit (n : Int) (index : Nat) : Bool :=
  n / Nat.pow 2 index % 2 == 1

def withBit (n : Int) (index : Nat) (b : Bool) : Datum :=
  if bit n index == b then .int n
  else if b then Arithmetic.wrapped (n + Nat.pow 2 index)
  else Arithmetic.wrapped (n - Nat.pow 2 index)

def bitCount : Nat := 64

/-- The part of a datum.  Items and entries lie in the datum; characters, bits and properties are
made. -/
def part (d : Datum) (a : Access) : Except Trouble Part :=
  match d, a with
  | .map entries, a =>
    match entryName? a with
    | some name => .ok (entry entries name)
    | none => .error .failed
  | .list items, .index (.int position) =>
    match (Library.place? items.size position).bind (items[·]?) with
    | some item => .ok (.inside item)
    | none => .error .failed
  | .text s, .index (.int position) =>
    match (Library.place? s.length position).bind (s.toList[·]?) with
    | some c => .ok (.made (.char c))
    | none => .error .failed
  | .int n, .index (.int position) =>
    match Library.place? bitCount position with
    | some index => .ok (.made (.bool (bit n index)))
    | none => .error .failed
  | d, .property name =>
    match Library.property? d name with
    | some value => .ok (.made value)
    | none => .error .failed
  | _, _ => .error .failed

/-- The datum with another part in it; as it was if there is no such part. -/
def withPart (d : Datum) (a : Access) (new : Datum) : Datum :=
  match d, a with
  | .map entries, a =>
    match entryName? a with
    | some name => .map (Dict.insert entries name new)
    | none => d
  | .list items, .index (.int position) =>
    match Library.place? items.size position with
    | some index => .list (items.setIfInBounds index new)
    | none => d
  | d, _ => d

/-- The datum after one of its characters or bits has been given another value; none for parts that
cannot be written.  A character is counted from the start, also by a negative position, whose size
counts then. -/
def withMade? (d : Datum) (a : Access) (new : Datum) : Option Datum :=
  match d, a, new with
  | .text s, .index (.int position), .char c =>
    some (.text (String.ofList (s.toList.set position.natAbs c)))
  | .int n, .index (.int position), .bool b =>
    (Library.place? bitCount position).map fun index => withBit n index b
  | _, _, _ => none

def inside? (d : Datum) (a : Access) : Option Datum :=
  match part d a with
  | .ok (.inside d) => some d
  | _ => none

/-- A map in which the accessed entry exists; other data are left alone. -/
def withEntry (d : Datum) (a : Access) : Datum :=
  match part d a, d with
  | .ok (.made new), .map _ => d.withPart a new
  | _, d => d

def inSpan (low high : Int) (inclusive : Bool) : Datum → Bool
  | .int n => low ≤ n && (if inclusive then n ≤ high else n < high)
  | .float x =>
    Float.ofInt low ≤ x && (if inclusive then x ≤ Float.ofInt high else x < Float.ofInt high)
  | _ => false

end Datum

namespace CaseKey

def isDatum (d : Datum) : CaseKey → Bool
  | .value key => Datum.identical key d
  | .span .. => false

def isSpanOf (d : Datum) : CaseKey → Bool
  | .value _ => false
  | .span low high inclusive => Datum.inSpan low high inclusive d

end CaseKey
end Formula
end StoryPlayer
