import StoryPlayer.Player.Variables

/-!
# The stack of running groups

- `Act.pushRoot` starts a script, `Act.enter` starts a group inside a script,
- `Player.settle` goes back to the caller of a script that has ended and hands over the parameters
  that were passed by reference,
- `Player.finishFrame` ends the innermost group when its nodes are used up.
-/

namespace StoryPlayer

/-! ## Frames by number -/

namespace Frames

def has (frames : List Frame) (id : UInt64) : Bool :=
  frames.any fun frame => frame.id == id

/-- The frame with the number and the frames below it; of several frames the lowest. -/
def upTo? (id : UInt64) : List Frame → Option (Frame × List Frame)
  | [] => none
  | frame :: below =>
    match upTo? id below with
    | some found => some found
    | none => if frame.id = id then some (frame, below) else none

/-- The frame with the number and all other frames; of several frames the lowest. -/
def takeOut? (id : UInt64) : List Frame → Option (Frame × List Frame)
  | [] => none
  | frame :: below =>
    match takeOut? id below with
    | some (found, others) => some (found, frame :: others)
    | none => if frame.id = id then some (frame, below) else none

/-- Moves the frame with the number to a node; of several frames the lowest. -/
def moveTo (id : UInt64) (node : Nat) : List Frame → List Frame
  | [] => []
  | frame :: below =>
    if has below id then frame :: moveTo id node below
    else if frame.id = id then { frame with node } :: below
    else frame :: below

/-- Hands the last values of a script's variables over to the paths bound to them.  It stops at the
first fault; what was handed over before stays. -/
def writeBack (story : Story) (scope : Dict Value) :
    Dict String → List Frame → Except Fault Unit × List Frame
  | [], frames => (.ok (), frames)
  | (name, path) :: rest, frames =>
    match Dict.get? scope name with
    | none => (.error (.refValueMissing name), frames)
    | some value =>
      match writePath story frames path value with
      | .error fault => (.error fault, frames)
      | .ok frames => writeBack story scope rest frames

/-- The innermost frame in which a script has started, and the frames below it. -/
def currentRoot? : List Frame → Option (Frame × List Frame)
  | [] => none
  | frame :: below => if frame.root then some (frame, below) else currentRoot? below

end Frames

/-! ## Pushing frames -/

/-- The variables of a script and their types when it starts. -/
structure Locals where
  scope : Dict Value
  types : Dict ScriptType

namespace Player

def push (p : Player) (frame : Frame) : Player :=
  { p with frames := { frame with id := p.counter } :: p.frames, counter := p.counter + 1 }

def rootFrame (group : String) (locals : Locals) (continuation : Option Continuation) : Frame where
  id := 0
  group := group
  node := 0
  scope := locals.scope
  types := locals.types
  completion := .none
  root := true
  continuation := continuation

def innerFrame (group : String) (completion : Completion) : Frame where
  id := 0
  group := group
  node := 0
  scope := []
  types := []
  completion := completion
  root := false
  continuation := none

def finished (p : Player) : Player :=
  { p with frames := [], pending := none, ended := true }

/-! ## Ending frames -/

/-- Goes on where a script that has ended was called, and hands over the parameters that were passed
by reference.  Without a caller the story is over. -/
def settle (story : Story) (scope : Dict Value) (continuation : Option Continuation) (p : Player) :
    Except Fault Unit × Player :=
  match continuation with
  | none => (.ok (), p.finished)
  | some c =>
    if Frames.has p.frames c.frame then
      match Frames.writeBack story scope c.refs p.frames with
      | (.ok _, frames) => (.ok (), { p with frames := Frames.moveTo c.frame c.node frames })
      | (.error fault, frames) => (.error fault, { p with frames })
    -- Nothing is left to go on with when the caller is gone.
    else (.ok (), p.finished)

def finishFrame (story : Story) (id : UInt64) (p : Player) : Except Fault Unit × Player :=
  match Frames.takeOut? id p.frames with
  | none => (.ok (), p)
  | some (frame, others) =>
    -- From here on the frame is gone, whatever comes of the references.
    if frame.root then settle story frame.scope frame.continuation { p with frames := others }
    else (.ok (), { p with frames := others })

end Player

namespace Act

def pushRoot (group : String) (locals : Locals) (continuation : Option Continuation) : Act Unit :=
  modify fun p => p.push (Player.rootFrame group locals continuation)

/-- Starts a group inside the running script; the group must exist.  With `advanceFirst` the frame
that leads into it moves on. -/
def enter (story : Story) (group : String) (completion : Completion) (advanceFirst : Bool) :
    Act Unit := do
  let _ ← liftM (story.group group)
  if advanceFirst then advance
  modify fun p => p.push (Player.innerFrame group completion)

def settle (story : Story) (scope : Dict Value) (continuation : Option Continuation) : Act Unit :=
  fun p =>
    match Player.settle story scope continuation p with
    | (.ok _, p') => .ok ((), p')
    | (.error fault, p') => .error ⟨fault, p'⟩

end Act

/-! ## Starting scripts -/

namespace Locals

def ofParams (params : List Param) : Locals :=
  params.foldl (fun locals param =>
    { scope := Dict.insert locals.scope param.name (Value.default param.type)
      types := Dict.insert locals.types param.name param.type }) ⟨[], []⟩

def assign (script : String) : Dict Value → Locals → Except Fault Locals
  | [], locals => .ok locals
  | (name, value) :: rest, locals =>
    match Dict.get? locals.types name with
    | none => .error (.argumentUndeclared name script)
    | some type =>
      if Value.fits type value then
        assign script rest { locals with scope := Dict.insert locals.scope name value }
      else .error (.argumentType name type.describe value.kind)

end Locals

def Story.locals (story : Story) (script : String) (arguments : Dict Value) :
    Except Fault Locals :=
  match Dict.get? story.scripts script with
  | none => .error (.scriptNotFound script)
  | some found => Locals.assign script arguments (Locals.ofParams found.params)

end StoryPlayer
