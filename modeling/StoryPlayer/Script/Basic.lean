import StoryPlayer.Value.Basic

/-!
# Scripts

A story is a bundle of scripts.  A script is a set of groups of nodes; a group runs its nodes in
order, and nodes lead into other groups.

- `Node` is one instruction,
- `Group`, `Script`, `Bundle` hold them together,
- `Node.id?` is the name of a node; a node of an unknown kind has none.
-/

namespace StoryPlayer

/-- The declaration of a variable: its type and the expression of its first value. -/
structure Declaration where
  name : String
  type : ScriptType
  initial : Option String

/-- A parameter of a script; one passed by reference is written back to the caller. -/
structure Param where
  name : String
  type : ScriptType
  byRef : Bool

/-- An argument of a call: an expression, or for a reference the path of the caller's variable. -/
structure Argument where
  source : String
  byRef : Bool
  deriving DecidableEq, Repr

/-- An option of a choice.  It is offered while its condition holds, at most once if `once` is set,
and only in place of all others if `fallOver` is set. -/
structure ChoiceOption where
  id : String
  text : String
  condition : Option String
  once : Bool
  fallOver : Bool
  group : String
  deriving DecidableEq, Repr

inductive Node
  /-- Shows a text. -/
  | text (id value : String) (once : Bool)
  /-- Runs code. -/
  | code (id source : String)
  /-- Declares a variable. -/
  | declare (id : String) (declaration : Declaration)
  /-- Runs one of two groups. -/
  | branch (id condition yes : String) (no : Option String)
  /-- Runs a group while a condition holds. -/
  | loop (id condition body : String)
  /-- Lets the player choose. -/
  | choice (id : String) (prompt : Option String) (options : List ChoiceOption)
  /-- Runs another script and continues after it. -/
  | call (id target : String) (arguments : List Argument)
  /-- Ends the script, or replaces it by another one. -/
  | finish (id : String) (target : Option String) (arguments : List Argument)
  /-- Leaves the innermost loop. -/
  | leave (id : String)
  /-- Starts the next round of the innermost loop. -/
  | again (id : String)
  /-- A node that cannot be run. -/
  | unknown

def Node.id? : Node → Option String
  | .text id _ _ => some id
  | .code id _ => some id
  | .declare id _ => some id
  | .branch id _ _ _ => some id
  | .loop id _ _ => some id
  | .choice id _ _ => some id
  | .call id _ _ => some id
  | .finish id _ _ => some id
  | .leave id => some id
  | .again id => some id
  | .unknown => none

structure Group where
  id : String
  parent : Option String
  nodes : List Node

/-- A script: its parameters, its groups and the group it starts with. -/
structure Script where
  name : String
  params : List Param
  root : String
  groups : Dict Group
  visibleGlobals : List String

/-- Everything that is played: scripts by name and the documents they may read. -/
structure Bundle where
  scripts : Dict Script
  entry : Option String
  globals : Dict Value
  version : Option String

end StoryPlayer
