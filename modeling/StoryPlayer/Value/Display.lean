import StoryPlayer.Decimal.Layout
import StoryPlayer.Text.Quoted
import StoryPlayer.Value.Basic

/-!
# Values in a story

How a value reads in the text of a story: numbers without a needless fraction, texts as they are,
lists and maps in a compact form in which texts are quoted.

- `displayNumber` writes a number,
- `Value.display` writes a value.
-/

namespace StoryPlayer

def displayNumber (x : Float) : String :=
  if x == 0 then "0" else Decimal.Layout.plain.write x

namespace Value

mutual

def display : Value → String
  | .bool true => "true"
  | .bool false => "false"
  | .number x => displayNumber x
  | .text s => s
  | .list items => "[" ++ ", ".intercalate (displayItems items) ++ "]"
  | .map entries => "\x7b" ++ ", ".intercalate (displayEntries entries) ++ "\x7d"

/-- The texts of the items of a list; texts among them are quoted. -/
def displayItems : List Value → List String
  | [] => []
  | .text s :: rest => Text.quote s :: displayItems rest
  | item :: rest => display item :: displayItems rest

/-- The texts of the entries of a map; texts among the values are quoted. -/
def displayEntries : List (String × Value) → List String
  | [] => []
  | (name, .text s) :: rest => (name ++ ": " ++ Text.quote s) :: displayEntries rest
  | (name, value) :: rest => (name ++ ": " ++ display value) :: displayEntries rest

end

end Value
end StoryPlayer
