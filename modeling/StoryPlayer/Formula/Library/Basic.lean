import StoryPlayer.Formula.Operator

/-!
# Functions of the language

The form that the functions offered to formulas have.  A function looks at the kinds of its
arguments; where they are not its own, another function of the same name may take them.

- `Effect` is what a call yields,
- `Native` is a function,
- `Library` is a table of functions.
-/

namespace StoryPlayer
namespace Formula

/-- What a call yields: a result, and what has become of the first argument if the function changes
it. -/
structure Effect where
  result : Datum
  first : Option Datum

namespace Effect

def pure (result : Datum) : Effect :=
  ⟨result, none⟩

def change (first : Datum) : Effect :=
  ⟨.unit, some first⟩

def both (result first : Datum) : Effect :=
  ⟨result, some first⟩

end Effect

/-- A function; none for arguments of kinds that it does not take. -/
abbrev Native := List Datum → Option (Except Trouble Effect)

abbrev Library := List (String × Native)

namespace Library

def give (d : Datum) : Option (Except Trouble Effect) :=
  some (.ok (.pure d))

def change (d : Datum) : Option (Except Trouble Effect) :=
  some (.ok (.change d))

def attempt (result : Except Trouble Datum) : Option (Except Trouble Effect) :=
  some (result.map .pure)

def fail : Option (Except Trouble Effect) :=
  some (.error .failed)

def call (library : Library) (name : String) (arguments : List Datum) :
    Option (Except Trouble Effect) :=
  library.findSome? fun entry => if entry.1 == name then entry.2 arguments else none

/-- The place that a position means, counted from the end if it is negative; none beyond the
items. -/
def place? (size : Nat) (position : Int) : Option Nat :=
  if 0 ≤ position then if position.toNat < size then some position.toNat else none
  else if position.natAbs ≤ size then some (size - position.natAbs)
  else none

/-- The place that a position means, counted from the end if it is negative and moved to the nearer
end beyond the items. -/
def clamped (size : Nat) (position : Int) : Nat :=
  if 0 ≤ position then min position.toNat size else size - position.natAbs

/-- Where a search starts: at the first item, or at the position that a further argument gives. -/
def start? (size : Nat) : List Datum → Option Nat
  | [] => some 0
  | [.int position] => some (clamped size position)
  | _ => none

end Library
end Formula
end StoryPlayer
