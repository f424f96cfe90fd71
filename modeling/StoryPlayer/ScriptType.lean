import StoryPlayer.Json.Fields

/-!
# Types of script variables

Every variable of a script has a declared type: a primitive, a list, a map with values of one type,
or an object with a fixed set of fields.

- `ScriptType.describe` is the name shown in messages,
- `ScriptType.toJson` and `ScriptType.ofJson` are its written form.
-/

namespace StoryPlayer

inductive Primitive
  | number
  | string
  | boolean
  deriving DecidableEq, Repr

inductive ScriptType
  | primitive (name : Primitive)
  | array (element : ScriptType)
  | map (value : ScriptType)
  | object (typeName : String) (fields : List (String × ScriptType))

namespace Primitive

def word : Primitive → String
  | .number => "number"
  | .string => "string"
  | .boolean => "boolean"

def ofWord? (s : String) : Option Primitive :=
  if s = "number" then some .number
  else if s = "string" then some .string
  else if s = "boolean" then some .boolean
  else none

@[simp] theorem ofWord?_word (p : Primitive) : ofWord? p.word = some p := by
  cases p <;> decide

end Primitive

namespace ScriptType

def number : ScriptType := .primitive .number

def string : ScriptType := .primitive .string

def boolean : ScriptType := .primitive .boolean

def describe : ScriptType → String
  | .primitive p => p.word
  | .array element => element.describe ++ "[]"
  | .map value => "#\x7b" ++ value.describe ++ "\x7d"
  | .object typeName _ => typeName

/-! ## Written form -/

mutual

def toJson : ScriptType → Json
  | .primitive p => .object [("kind", .text "primitive"), ("name", .text p.word)]
  | .array element => .object [("kind", .text "array"), ("elementType", toJson element)]
  | .map value => .object [("kind", .text "map"), ("valueType", toJson value)]
  | .object typeName fields =>
    .object [("kind", .text "object"), ("typeName", .text typeName),
      ("fields", .object (fieldsToJson fields))]

def fieldsToJson : List (String × ScriptType) → List (String × Json)
  | [] => []
  | (name, type) :: rest => (name, toJson type) :: fieldsToJson rest

end

def kinds : List String :=
  ["primitive", "array", "map", "object"]

def layout (kind : String) : Json.Layout :=
  if kind = "primitive" then ⟨["name"], 1⟩
  else if kind = "array" then ⟨["elementType"], 1⟩
  else if kind = "map" then ⟨["valueType"], 1⟩
  else ⟨["typeName", "fields"], 2⟩

/-- Reads a type from a document nested at most `fuel` deep.  The types inside of it are parts of what
has been read as a whole. -/
def readJson (readKind : Json → Option String) : Nat → Json → Option ScriptType
  | 0, _ => none
  | fuel + 1, j => do
    let (kind, members) ← j.asTagged readKind layout
    let part := readJson (Json.asWordOrPlace kinds) fuel
    if kind = "primitive" then
      let word ← Json.required members "name" Json.asWordWithin
      (Primitive.ofWord? word).map ScriptType.primitive
    else if kind = "array" then
      (Json.required members "elementType" part).map ScriptType.array
    else if kind = "map" then
      (Json.required members "valueType" part).map ScriptType.map
    else if kind = "object" then
      let typeName ← Json.required members "typeName" Json.asText
      let fields ← Json.required members "fields" (Json.asDict part)
      return .object typeName fields
    else none

def ofJson (j : Json) : Option ScriptType :=
  readJson Json.asText j.depth j

def ofPart (j : Json) : Option ScriptType :=
  readJson (Json.asWordOrPlace kinds) j.depth j

end ScriptType
end StoryPlayer
