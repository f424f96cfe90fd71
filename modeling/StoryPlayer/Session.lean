import StoryPlayer.Formula.Interpreter
import StoryPlayer.Player.Save
import StoryPlayer.Script.Codec
import StoryPlayer.Snapshot.Codec

/-!
# Sessions

A story together with the state in which it is played: what a program that plays stories holds on
to.

- `Session.new` prepares a bundle, `Session.create` also starts it, `Session.restore` continues from
  a save,
- `Session.start`, `Session.next`, `Session.choose`, `Session.resume` play it; a failure of any of
  them but `next` leaves the session as it was,
- `Session.save` is the text of a save.
-/

namespace StoryPlayer

/-- A story and the state in which it is played. -/
structure Session where
  story : Story
  player : Player

namespace Session

def new (bundle : Bundle) (seed : Option UInt32) (host : HostFunctions)
    (evaluator : Formula.Evaluator := Formula.interpreter) : Except Fault Session :=
  match Story.make bundle seed host evaluator with
  | .ok story => .ok ⟨story, Player.fresh story.seed⟩
  | .error fault => .error fault

def after {α : Type} (s : Session) (result : Except Fault α × Player) : Except Fault α × Session :=
  (result.1, { s with player := result.2 })

def start (s : Session) (script : String) (arguments : Dict Value) : Except Fault Unit × Session :=
  s.after (s.player.start s.story script arguments)

def next (s : Session) : Except Fault Output × Session :=
  s.after (s.player.next s.story)

def choose (s : Session) (index : Nat) : Except Fault Unit × Session :=
  s.after (s.player.choose s.story index)

def resume (s : Session) (snapshot : Snapshot) : Except Fault Unit × Session :=
  s.after (s.player.resume s.story snapshot)

def save (s : Session) : Except Fault String :=
  (s.player.snapshot s.story).map Snapshot.encode

def checked (result : Except Fault Unit × Session) : Except Fault Session :=
  result.1.map fun _ => result.2

/-- Prepares a bundle and starts it: at the script asked for, else at the one it names, else at
`main`. -/
def create (bundle : Bundle) (entry : Option String) (arguments : Dict Value)
    (seed : Option UInt32) (host : HostFunctions)
    (evaluator : Formula.Evaluator := Formula.interpreter) : Except Fault Session := do
  let script ← Bundle.resolveEntry bundle.scripts (entry <|> bundle.entry)
  let session ← new bundle seed host evaluator
  checked (session.start script arguments)

/-- Prepares a bundle and goes on from a save. -/
def restore (bundle : Bundle) (snapshot : Snapshot) (host : HostFunctions)
    (evaluator : Formula.Evaluator := Formula.interpreter) : Except Fault Session := do
  let session ← new bundle none host evaluator
  checked (session.resume snapshot)

/-- The document of the story with the name, whether or not a script may look into it. -/
def document? (s : Session) (name : String) : Option Value :=
  Dict.get? s.story.globals name

end Session
end StoryPlayer
