import StoryPlayer.Json.Fields
import StoryPlayer.ScriptType

/-!
# Values of script variables

What a variable holds.  There is no empty value: every declared variable has one from the start.

- `BEq Value` compares values; numbers by their size, so both zeros are equal,
- `Value.fits` decides whether a value has a type,
- `Value.default` is the first value of a variable,
- `Value.toJson` and `Value.ofJson` are the written form.
-/

namespace StoryPlayer

inductive Value
  | bool (b : Bool)
  | number (x : Float)
  | text (s : String)
  | list (items : List Value)
  | map (entries : List (String × Value))

namespace Value

def kind : Value → String
  | .bool _ => "boolean"
  | .number _ => "number"
  | .text _ => "string"
  | .list _ => "array"
  | .map _ => "map"

def asBool? : Value → Option Bool
  | .bool b => some b
  | _ => none

def asNumber? : Value → Option Float
  | .number x => some x
  | _ => none

def asText? : Value → Option String
  | .text s => some s
  | _ => none

/-! ## Comparison -/

mutual

def same : Value → Value → Bool
  | .bool a, .bool b => a == b
  | .number a, .number b => a == b
  | .text a, .text b => a == b
  | .list a, .list b => sameItems a b
  | .map a, .map b => sameEntries a b
  | _, _ => false

def sameItems : List Value → List Value → Bool
  | [], [] => true
  | a :: as, b :: bs => same a b && sameItems as bs
  | _, _ => false

def sameEntries : List (String × Value) → List (String × Value) → Bool
  | [], [] => true
  | (m, a) :: as, (n, b) :: bs => m == n && same a b && sameEntries as bs
  | _, _ => false

end

instance : BEq Value := ⟨same⟩

/-! ## Types -/

mutual

def fits : ScriptType → Value → Bool
  | .primitive .number, .number _ => true
  | .primitive .string, .text _ => true
  | .primitive .boolean, .bool _ => true
  | .array element, .list items => items.all fun item => fits element item
  | .map type, .map entries => entries.all fun entry => fits type entry.2
  | .object _ fields, .map entries => entries.length == fields.length && fitsFields fields entries
  | _, _ => false

def fitsFields : List (String × ScriptType) → List (String × Value) → Bool
  | [], _ => true
  | (name, type) :: rest, entries =>
    (match Dict.get? entries name with
      | some value => fits type value
      | none => false) && fitsFields rest entries

end

mutual

def default : ScriptType → Value
  | .primitive .number => .number 0
  | .primitive .string => .text ""
  | .primitive .boolean => .bool false
  | .array _ => .list []
  | .map _ => .map []
  | .object _ fields => .map (defaultFields fields)

def defaultFields : List (String × ScriptType) → List (String × Value)
  | [] => []
  | (name, type) :: rest => (name, default type) :: defaultFields rest

end

/-! ## Written form -/

mutual

def toJson : Value → Json
  | .bool b => .bool b
  | .number x => .number (.real x)
  | .text s => .text s
  | .list items => .list (itemsToJson items)
  | .map entries => .object (entriesToJson entries)

def itemsToJson : List Value → List Json
  | [] => []
  | item :: rest => toJson item :: itemsToJson rest

def entriesToJson : List (String × Value) → List (String × Json)
  | [] => []
  | (name, value) :: rest => (name, toJson value) :: entriesToJson rest

end

mutual

def ofJson : Json → Option Value
  | .null => none
  | .unreadable => none
  | .bool b => some (.bool b)
  | .number n => some (.number n.toFloat)
  | .text s => some (.text s)
  | .list items => (itemsOfJson items).map .list
  | .object members => (entriesOfJson members).map fun entries => .map (Dict.ofList entries)

def itemsOfJson : List Json → Option (List Value)
  | [] => some []
  | item :: rest =>
    match ofJson item, itemsOfJson rest with
    | some value, some values => some (value :: values)
    | _, _ => none

def entriesOfJson : List (String × Json) → Option (List (String × Value))
  | [] => some []
  | (name, member) :: rest =>
    match ofJson member, entriesOfJson rest with
    | some value, some entries => some ((name, value) :: entries)
    | _, _ => none

end

def dictToJson (d : Dict Value) : Json :=
  .object (entriesToJson d)

end Value
end StoryPlayer
