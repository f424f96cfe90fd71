import StoryPlayer.Value.Basic

/-!
# Documents of a story

Read-only documents that scripts may look into, and views of their parts.

- `Globals` holds the documents by name,
- `Value.child?`, `Value.item?`, `Value.descend?` walk into a value,
- `Value.size`, `Value.names` describe what is there.
-/

namespace StoryPlayer

abbrev Globals := Dict Value

namespace Value

def child? : Value → String → Option Value
  | .map entries, name => Dict.get? entries name
  | _, _ => none

def item? : Value → Nat → Option Value
  | .list items, index => items[index]?
  | _, _ => none

def descend? : Value → List String → Option Value
  | value, [] => some value
  | value, name :: rest =>
    match value.child? name with
    | some inner => descend? inner rest
    | none => none

/-- The number of items or entries; none of either in other values. -/
def size : Value → Nat
  | .list items => items.length
  | .map entries => entries.length
  | _ => 0

def names : Value → List String
  | .map entries => Dict.keys entries
  | _ => []

end Value
end StoryPlayer
