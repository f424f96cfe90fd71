import StoryPlayer.Formula.Datum

/-!
# Formulas as trees

The structure of expressions and statements once their text has been read.

- `Expr`, `Link`, `Stmt`, `Case` are the trees,
- `Routine` is a function written in a formula,
- `Program` is a whole formula.
-/

namespace StoryPlayer
namespace Formula

inductive Unary
  | minus
  | plus
  | not
  deriving DecidableEq, Repr

inductive Binary
  | add
  | sub
  | mul
  | div
  | rem
  | pow
  | shiftLeft
  | shiftRight
  | bitAnd
  | bitOr
  | bitXor
  | eq
  | ne
  | lt
  | le
  | gt
  | ge
  | range
  | rangeInclusive
  deriving DecidableEq, Repr

inductive CaseKey
  | value (d : Datum)
  | span (low high : Int) (inclusive : Bool)

mutual

inductive Expr
  | constant (d : Datum)
  /-- A text put together from the texts of its parts. -/
  | pieces (parts : List Expr)
  | list (items : List Expr)
  | map (entries : List (String × Expr))
  /-- A variable; `declared` if the formula, function or closure around it declares it. -/
  | name (s : String) (declared : Bool)
  /-- The value that a function was called on. -/
  | self
  /-- A constant of a module. -/
  | member (modules : List String) (s : String)
  | call (function : String) (arguments : List Expr)
  /-- A call of a function of a module. -/
  | moduleCall (modules : List String) (function : String) (arguments : List Expr)
  | unary (op : Unary) (e : Expr)
  | binary (op : Binary) (a b : Expr)
  /-- Whether a container has an item. -/
  | contains (container item : Expr)
  /-- Whether all parts hold. -/
  | both (parts : List Expr)
  /-- Whether one of the parts holds. -/
  | either (parts : List Expr)
  /-- The first part that is not the unit. -/
  | orElse (parts : List Expr)
  /-- A way into the parts of a value. -/
  | chain (root : Expr) (links : List Link)
  /-- Statements used for their value. -/
  | block (body : List Stmt)

inductive Link
  | property (s : String)
  | index (e : Expr)
  | method (function : String) (arguments : List Expr)

inductive Stmt
  | noop
  | expr (e : Expr)
  /-- A call for its effect. -/
  | perform (e : Expr)
  | declare (constant : Bool) (s : String) (e : Expr)
  | assign (target : Expr) (op : Option Binary) (e : Expr)
  | block (body : List Stmt)
  | branch (condition : Expr) (yes no : List Stmt)
  | select (subject : Expr) (cases : List Case) (otherwise : Option Expr)
  /-- Repeats the body for ever. -/
  | forever (body : List Stmt)
  | repeatWhile (condition : Expr) (body : List Stmt)
  /-- Runs the body, then repeats it while the condition has the given value. -/
  | repeatAfter (body : List Stmt) (condition : Expr) (goOn : Bool)
  | forEach (s : String) (counter : Option String) (source : Expr) (body : List Stmt)
  | leave (e : Option Expr)
  | again
  | finish (e : Option Expr)
  | throw (e : Option Expr)
  | attempt (body : List Stmt) (caught : Option String) (handler : List Stmt)
  | load (e : Expr)
  /-- Moves variables to cells, which closures share. -/
  | share (names : List String)

/-- A case of a selection: it matches one of the keys, if its condition holds. -/
inductive Case
  | mk (keys : List CaseKey) (condition body : Expr)

end

namespace Expr

def unit : Expr := .constant .unit

def bool (b : Bool) : Expr := .constant (.bool b)

def text (s : String) : Expr := .constant (.text s)

def isCall : Expr → Bool
  | .call .. => true
  | .moduleCall .. => true
  | .unary .. => true
  | .binary .. => true
  | .contains .. => true
  | _ => false

end Expr

structure Routine where
  name : String
  params : List String
  body : List Stmt

namespace Routine

/-- What the names of closures start with; no name written in a formula does. -/
def closureMark : String := "anon$"

def isClosure (routine : Routine) : Bool :=
  closureMark.toList.isPrefixOf routine.name.toList

end Routine

structure Program where
  body : List Stmt
  routines : List Routine

end Formula
end StoryPlayer
