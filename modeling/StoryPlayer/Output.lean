import StoryPlayer.Json.Fields
import StoryPlayer.Script.Codec

/-!
# What the player sees

The result of running a story up to the next point of interest: a text, a choice, or the end.

- `ChoiceItem` is an offered option,
- `Output` is a result,
- both have a written form.
-/

namespace StoryPlayer

/-- An option as it is offered: its place in the list, its name and its text. -/
structure ChoiceItem where
  index : Nat
  id : String
  text : String
  deriving DecidableEq, Repr

/-- The next thing to show. -/
inductive Output
  | text (text : String)
  | choices (items : List ChoiceItem) (prompt : Option String)
  | ended
  deriving DecidableEq, Repr

namespace ChoiceItem

def toJson (i : ChoiceItem) : Json :=
  .object [("index", .nat i.index), ("id", .text i.id), ("text", .text i.text)]

def layout : Json.Layout :=
  ⟨["index", "id", "text"], 3⟩

def ofJson (j : Json) : Option ChoiceItem := do
  let members ← j.asRecord layout
  let index ← Json.required members "index" Json.asNat64
  let id ← Json.required members "id" Json.asText
  let text ← Json.required members "text" Json.asText
  return { index, id, text }

end ChoiceItem

namespace Output

def toJson : Output → Json
  | .text shown => .object [("kind", .text "text"), ("text", .text shown)]
  | .choices items prompt =>
    .object [("kind", .text "choices"), ("items", .list (items.map ChoiceItem.toJson)),
      ("promptText", .optionalText prompt)]
  | .ended => .object [("kind", .text "end")]

def layout (kind : String) : Json.Layout :=
  if kind = "text" then ⟨["text"], 1⟩
  else if kind = "choices" then ⟨["items", "promptText"], 2⟩
  else ⟨[], 0⟩

def ofJson (j : Json) : Option Output := do
  let (kind, members) ← j.asTagged Json.asText layout
  if kind = "text" then
    return .text (← Json.required members "text" Json.asText)
  else if kind = "choices" then
    return .choices (← Json.required members "items" (Json.asList ChoiceItem.ofJson))
      (← Json.optional members "promptText" Json.asText)
  else if kind = "end" then
    return .ended
  else none

end Output
end StoryPlayer
