import StoryPlayer.Snapshot.Basic
import StoryPlayer.Story

/-!
# The state of a story that is played

- `Player` is the state: a stack of frames, a choice that waits for an answer, what was shown once,
  and the random number generator,
- `Act` is a change of the state that may fail; one that fails has been made up to the `Failure`,
- `Once` remembers which texts and options have been used.
-/

namespace StoryPlayer

/-! ## Things used once -/

/-- For each script the names of the texts and options that have been used, in order. -/
abbrev Once := Dict (List String)

namespace Once

def insertKey (key : String) : List String → List String
  | [] => [key]
  | name :: rest =>
    if key < name then key :: name :: rest
    else if name = key then name :: rest
    else name :: insertKey key rest

def orderKeys (keys : List String) : List String :=
  keys.foldl (fun ordered key => insertKey key ordered) []

def textKey (id : String) : String :=
  "text:" ++ id

def optionKey (id : String) : String :=
  "option:" ++ id

def keys (once : Once) (script : String) : List String :=
  (Dict.get? once script).getD []

def fired (once : Once) (script key : String) : Bool :=
  (once.keys script).contains key

def mark (once : Once) (script key : String) : Once :=
  Dict.insert once script (insertKey key (once.keys script))

end Once

/-! ## The state -/

/-- A choice that waits for an answer: the frame and the node it belongs to, and what is offered. -/
structure Pending where
  frame : UInt64
  node : String
  items : List ChoiceItem
  prompt : Option String
  deriving DecidableEq, Repr

/-- What is shown while a choice waits for an answer. -/
def Pending.output (pending : Pending) : Output :=
  .choices pending.items pending.prompt

/-- The state of a story that is played. -/
structure Player where
  /-- The running groups, the innermost first. -/
  frames : List Frame
  pending : Option Pending
  ended : Bool
  /-- The number of the next frame. -/
  counter : UInt64
  once : Once
  generator : UInt32

namespace Player

def firstFrame : UInt64 := 1

def fresh (seed : UInt32) : Player where
  frames := []
  pending := none
  ended := false
  counter := firstFrame
  once := []
  generator := seed

def waiting (p : Player) : Bool :=
  p.pending.isSome

end Player

/-- Where a change of the state has failed: why, and the state that it has come to. -/
structure Failure where
  fault : Fault
  reached : Player

/-- A change of the state with a result.  One that fails keeps what it has changed before. -/
abbrev Act := StateT Player (Except Failure)

namespace Act

variable {α : Type}

def fail (fault : Fault) : Act α :=
  fun p => .error ⟨fault, p⟩

def ofExcept : Except Fault α → Act α
  | .ok x => pure x
  | .error fault => fail fault

instance : MonadLift (Except Fault) Act := ⟨ofExcept⟩

def rewording (change : Fault → Fault) (act : Act α) : Act α :=
  fun p =>
    match act p with
    | .ok result => .ok result
    | .error failure => .error { failure with fault := change failure.fault }

def setFrames (frames : List Frame) : Act Unit :=
  modify fun p => { p with frames }

def top : Act Frame := do
  match (← get).frames with
  | [] => fail .noFrame
  | frame :: _ => return frame

def advance : Act Unit := do
  match (← get).frames with
  | [] => fail .noFrame
  | frame :: below => setFrames ({ frame with node := frame.node + 1 } :: below)

end Act
end StoryPlayer
