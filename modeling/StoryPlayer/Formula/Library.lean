import StoryPlayer.Formula.Library.Change
import StoryPlayer.Formula.Library.Collection
import StoryPlayer.Formula.Library.Number
import StoryPlayer.Formula.Library.Text

/-!
# The library of formulas

All functions that formulas may call by their names, and the properties of data that have no
entries of their own.

- `Library.standard` is the library without the changes of lists,
- `Library.answer?` calls any function,
- `Library.property?` is a property of a list, a text or a number.
-/

namespace StoryPlayer
namespace Formula
namespace Library

def toText : Native
  | [d] => give (.text d.joined)
  | _ => none

def typeOf : Native
  | [d] => give (.text d.typeName)
  | _ => none

def silent : Native
  | [] => give .unit
  | [_] => give .unit
  | _ => none

def general : Library :=
  [("to_string", toText), ("type_of", typeOf), ("print", silent), ("debug", silent)]

def standard : Library :=
  collections ++ texts ++ numbers ++ general

/-- Calls any function; none if there is no such function for the arguments. -/
def answer? (name : String) (arguments : List Datum) : Option (Except Trouble Effect) :=
  match call standard name arguments with
  | some result => some result
  | none => callChange name arguments

/-- The functions that can also be read as properties of lists and texts. -/
def sizeProperties : List String := ["len", "is_empty"]

/-- The functions that can also be read as properties of doubles. -/
def floatProperties : List String := ["floor", "ceiling", "round"]

def property? (d : Datum) (name : String) : Option Datum :=
  let readable :=
    match d with
    | .list _ => sizeProperties.contains name
    | .text _ => sizeProperties.contains name
    | .float _ => floatProperties.contains name
    | _ => false
  if readable then
    match call standard name [d] with
    | some (.ok effect) => some effect.result
    | _ => none
  else none

end Library
end Formula
end StoryPlayer
