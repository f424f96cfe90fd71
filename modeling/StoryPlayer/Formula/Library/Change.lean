import StoryPlayer.Formula.Library.Basic

/-!
# Changes of lists

The functions that change a list in place.  Which of them applies depends on its name and its other
arguments only, so the list itself can be handed over to it.

- `ListChange` is what a function does to a list,
- `Library.sorted` puts items in order,
- `Library.listChange?` finds a function.
-/

namespace StoryPlayer
namespace Formula

/-- A change of a list: the result of the call and what becomes of the list. -/
abbrev ListChange := Array Datum → Except Trouble Datum × Array Datum

namespace Library

/-! ## Sorting -/

/-- One item may stand before another of its kind; kinds without an order keep the items as they
are. -/
def inOrder : Datum → Datum → Bool
  | .bool a, .bool b => !a || b
  | .int a, .int b => a ≤ b
  | .float a, .float b => !(b < a)
  | .char a, .char b => !(decide (b < a))
  | .text a, .text b => !(decide (b < a))
  | _, _ => true

/-- The items in order; all must be of one kind. -/
def sorted (items : List Datum) : Except Trouble (List Datum) :=
  match items with
  | [] => .ok []
  | first :: _ =>
    if items.all fun item => item.typeName == first.typeName then .ok (items.mergeSort inOrder)
    else .error .failed

/-! ## Changes -/

def push (d : Datum) : ListChange := fun items =>
  (.ok .unit, items.push d)

def append (more : Array Datum) : ListChange := fun items =>
  (.ok .unit, items ++ more)

def pop : ListChange := fun items =>
  (.ok (items.back?.getD .unit), items.pop)

def shift : ListChange := fun items =>
  (.ok (items[0]?.getD .unit), items.extract 1 items.size)

/-- Puts an item at a position, which is moved to the nearer end if it is beyond the list. -/
def insert (position : Int) (d : Datum) : ListChange := fun items =>
  (.ok .unit, items.insertIdxIfInBounds (clamped items.size position) d)

/-- Takes the item at a position out; beyond the list there is none. -/
def remove (position : Int) : ListChange := fun items =>
  match place? items.size position with
  | some index => (.ok (items[index]?.getD .unit), items.eraseIdxIfInBounds index)
  | none => (.ok .unit, items)

def clear : ListChange := fun _ =>
  (.ok .unit, #[])

def reverse : ListChange := fun items =>
  (.ok .unit, items.reverse)

/-- Puts the items in order; items of different kinds have none. -/
def sort : ListChange := fun items =>
  match sorted items.toList with
  | .ok items => (.ok .unit, items.toArray)
  | .error trouble => (.error trouble, items)

/-- The change that a function makes to a list when it is called with further arguments. -/
def listChange? (function : String) (arguments : List Datum) : Option ListChange :=
  match function, arguments with
  | "push", [d] => some (push d)
  | "append", [.list more] => some (append more)
  | "pop", [] => some pop
  | "shift", [] => some shift
  | "insert", [.int position, d] => some (insert position d)
  | "remove", [.int position] => some (remove position)
  | "clear", [] => some clear
  | "reverse", [] => some reverse
  | "sort", [] => some sort
  | _, _ => none

/-- A call of a function that changes the list in front of its arguments. -/
def callChange (name : String) (arguments : List Datum) : Option (Except Trouble Effect) :=
  match arguments with
  | .list items :: rest =>
    (listChange? name rest).map fun f =>
      let (result, items) := f items
      result.map fun d => .both d (.list items)
  | _ => none

end Library
end Formula
end StoryPlayer
