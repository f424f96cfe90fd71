import StoryPlayer.Output

/-!
# Snapshots

The complete state of a story that waits for a choice, in the form in which it is saved.

- `Completion` says what a frame does when its group is done,
- `Continuation` says where a called script returns to and which variables it writes back,
- `Frame` is a running group; a state has a stack of them,
- `Snapshot` is a saved state.
-/

namespace StoryPlayer

inductive Completion
  /-- The root of a script. -/
  | none
  /-- The body of a loop, to be followed by another test. -/
  | whileBody
  /-- A branch or a chosen option. -/
  | resumeAfterChild
  deriving DecidableEq, Repr

/-- Where a called script returns to: a frame, the node to go on with, and for each parameter
passed by reference the path that receives its last value. -/
structure Continuation where
  frame : UInt64
  node : Nat
  refs : Dict String
  deriving DecidableEq, Repr

/-- A running group: the node it stands at and the variables it declared. -/
structure Frame where
  id : UInt64
  group : String
  node : Nat
  scope : Dict Value
  types : Dict ScriptType
  completion : Completion
  root : Bool
  continuation : Option Continuation

/-- The groups of all frames and the node of the uppermost. -/
structure Cursor where
  groups : List String
  node : Nat
  deriving DecidableEq, Repr

structure ScopeEntry where
  frame : UInt64
  group : String
  scope : Dict Value

/-- A saved state.  The cursor, the scopes and the continuations only repeat what the frames say, so
that a save can be looked into; they are not read when it is restored. -/
structure Snapshot where
  schema : String
  version : String
  cursor : Cursor
  frames : List Frame
  scopes : List ScopeEntry
  continuations : List Continuation
  rng : UInt32
  waiting : Bool
  choice : String
  items : List ChoiceItem
  prompt : Option String
  once : Dict (List String)

def Snapshot.currentSchema : String := "snapshot.v1"

end StoryPlayer
