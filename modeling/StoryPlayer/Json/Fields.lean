import StoryPlayer.Json.Basic

/-!
# Reading records from documents

Small readers from which records are put together.  A record is an object whose known members occur
at most once, while members with other names are left alone; or it is a list of the known members in
order.  A record of one of several kinds begins with its kind.

- `asRecord` and `asTagged` read the members of a record, in the order of a `Layout`,
- `member?` looks a member up,
- `required`, `optional`, `defaulted` read a member that must be there, that may be absent or
  `null`, or that may be absent,
- `asText`, `asBool`, `asNat64`, `asList`, `asDict` read the plain shapes.
-/

namespace StoryPlayer
namespace Json

/-! ## Plain shapes -/

def asText : Json → Option String
  | .text s => some s
  | _ => none

def asBool : Json → Option Bool
  | .bool b => some b
  | _ => none

/-- A whole number from `0` to `2 ^ 64 - 1`. -/
def asNat64 : Json → Option Nat
  | .number (.natural n) => some n
  | _ => none

/-- A whole number from `0` to `2 ^ 32 - 1`. -/
def asUInt32 : Json → Option UInt32
  | .number (.natural n) => if n < 0x100000000 then some (UInt32.ofNat n) else none
  | _ => none

def asList {α : Type} (read : Json → Option α) : Json → Option (List α)
  | .list items => items.mapM read
  | _ => none

/-- A dictionary of things that `read` accepts; of a repeated name the last counts. -/
def asDict {α : Type} (read : Json → Option α) : Json → Option (Dict α)
  | .object members =>
    (members.mapM fun member => (read member.2).map fun value => (member.1, value)).map Dict.ofList
  | _ => none

/-- The word of a bare case: the word itself, or an object whose only member has that name and is
`null`. -/
def asWord : Json → Option String
  | .text s => some s
  | .object [(name, .null)] => some name
  | _ => none

/-! ## Parts of what has been read as a whole

What depends on its kind is read as a whole before it is looked into.  For parts of it some more
spellings are accepted. -/

/-- The word of a bare case; instead of `null` there may be an empty object. -/
def asWordWithin : Json → Option String
  | .object [(name, .object [])] => some name
  | j => j.asWord

def asWordOrPlace (words : List String) : Json → Option String
  | .number (.natural n) => words[n]?
  | j => j.asText

/-! ## Members -/

def occurrences (members : List (String × Json)) (name : String) : List Json :=
  (members.filter fun member => member.1 == name).map Prod.snd

/-- The member with the name, if there is one; fails when there are several. -/
def member? (members : List (String × Json)) (name : String) : Option (Option Json) :=
  match occurrences members name with
  | [] => some none
  | [value] => some (some value)
  | _ => none

def required {α : Type} (members : List (String × Json)) (name : String)
    (read : Json → Option α) : Option α :=
  match member? members name with
  | some (some value) => read value
  | _ => none

def optional {α : Type} (members : List (String × Json)) (name : String)
    (read : Json → Option α) : Option (Option α) :=
  match member? members name with
  | some (some .null) => some none
  | some (some value) => (read value).map some
  | some none => some none
  | none => none

def defaulted {α : Type} (members : List (String × Json)) (name : String) (fallback : α)
    (read : Json → Option α) : Option α :=
  match member? members name with
  | some (some value) => read value
  | some none => some fallback
  | none => none

/-! ## Records -/

/-- The known members of a record in order.  A list of them must have the first `least`. -/
structure Layout where
  names : List String
  least : Nat

def Layout.name? (layout : Layout) (items : List Json) : Option (List (String × Json)) :=
  if layout.least ≤ items.length ∧ items.length ≤ layout.names.length then
    some (layout.names.zip items)
  else none

def asRecord (layout : Layout) : Json → Option (List (String × Json))
  | .object members => some members
  | .list items => layout.name? items
  | _ => none

@[simp] theorem asRecord_object (layout : Layout) (members : List (String × Json)) :
    asRecord layout (.object members) = some members := rfl

/-- The kind of a record that has one, and its members: the kind is the member `kind` of an object, or
the first item of a list. -/
def asTagged (readKind : Json → Option String) (layout : String → Layout) :
    Json → Option (String × List (String × Json))
  | .object members => do return (← required members "kind" readKind, members)
  | .list (first :: rest) => do
    let kind ← readKind first
    return (kind, ← (layout kind).name? rest)
  | _ => none

end Json
end StoryPlayer
