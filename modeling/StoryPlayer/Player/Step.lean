import StoryPlayer.Player.Calls
import StoryPlayer.Player.Choices

/-!
# Playing a story

- `Act.runNode` runs one node,
- `Player.dispatch` takes one step: it runs the node at the cursor or ends a group,
- `Player.next` plays on to the next thing to show.
-/

namespace StoryPlayer
namespace Act

/-! ## Single nodes -/

def initialFault (name : String) (fault : Fault) : Fault :=
  -- To have no value is a fault of the declaration, wherever it comes from.
  if fault.code == Fault.code .noValue then .initialUndefined name else fault

def firstValue (story : Story) (d : Declaration) : Act Value :=
  match d.initial with
  | some source => rewording (initialFault d.name) (evaluate story source)
  | none => pure (.default d.type)

def declareAs (d : Declaration) (value : Value) : Act Unit := do
  if Value.fits d.type value then
    match (← get).frames with
    | [] => fail .noFrame
    | frame :: below =>
      setFrames ({ frame with
        scope := Dict.insert frame.scope d.name value
        types := Dict.insert frame.types d.name d.type } :: below)
  else fail (.variableType d.name d.type.describe value.kind)

def declare (story : Story) (d : Declaration) : Act Unit := do
  if Dict.contains (← top).scope d.name then fail (.variableDeclaredTwice d.name)
  else declareAs d (← firstValue story d)

/-- Shows a text, at most once if that is asked for. -/
def showText (story : Story) (script id value : String) (once : Bool) : Act (Option Output) := do
  if once && (← get).once.fired script (Once.textKey id) then
    advance
    return none
  else
    let text ← render story value
    advance
    if once then modify fun p => { p with once := p.once.mark script (Once.textKey id) }
    return some (.text text)

def branch (story : Story) (source yes : String) (no : Option String) : Act Unit := do
  let target := if ← condition story source then some yes else no
  match target with
  | some group => enter story group .resumeAfterChild true
  | none => advance

/-- Runs a group if a condition holds; the frame stays where it is to test again. -/
def loop (story : Story) (source body : String) : Act Unit := do
  if ← condition story source then enter story body .whileBody false else advance

def belowLoop? : List Frame → Option (List Frame)
  | [] => none
  | frame :: below =>
    -- A body counts as one even if it is marked as the start of a script.
    if frame.completion = .whileBody then some below
    else if frame.root then none
    else belowLoop? below

def isLoop : Option Node → Bool
  | some (.loop ..) => true
  | _ => false

def backToLoop (story : Story) (keyword : String) : Act Unit := do
  match belowLoop? (← get).frames with
  | some (owner :: below) =>
    let (_, group) ← liftM (story.group owner.group)
    -- A frame that was saved as a body need not stand in a loop.
    if isLoop group.nodes[owner.node]? then setFrames (owner :: below)
    else fail (.outsideLoop keyword)
  | _ => fail (.outsideLoop keyword)

def runNode (story : Story) (script group : String) (index : Nat) (node : Node) :
    Act (Option Output) := do
  match node with
  | .text id value once => showText story script id value once
  | .code _ source =>
    execute story source
    advance
    return none
  | .declare _ declaration =>
    declare story declaration
    advance
    return none
  | .branch _ source yes no =>
    branch story source yes no
    return none
  | .loop _ source body =>
    loop story source body
    return none
  | .choice id prompt options => offer story script id prompt options
  | .call _ target arguments =>
    call story target arguments
    return none
  | .finish _ none _ =>
    leaveScript story
    return none
  | .finish _ (some target) arguments =>
    transfer story target arguments
    return none
  | .leave _ =>
    backToLoop story "break"
    advance
    return none
  | .again _ =>
    backToLoop story "continue"
    return none
  | .unknown => fail (.nodeUnknown index group)

end Act

/-! ## Steps -/

inductive Progress
  /-- Nothing to show yet. -/
  | running
  | shown (output : Output)
  | failed (fault : Fault)
  deriving DecidableEq, Repr

namespace Player

def stop (p : Player) : Player :=
  { p with ended := true }

/-- What is remembered of the state while a node is run. -/
structure Checkpoint where
  frames : List Frame
  generator : UInt32
  once : Once

/-- What has to be put back if a node fails. -/
def checkpoint (p : Player) : Checkpoint :=
  ⟨p.frames, p.generator, p.once⟩

/-- Goes back to a checkpoint.  Nodes are run only while nothing waits and the story is not over. -/
def rollback (p : Player) (c : Checkpoint) : Player :=
  { p with
    frames := c.frames
    generator := c.generator
    once := c.once
    pending := none
    ended := false }

/-- Takes one step.  What a node that fails has changed is put back. -/
def dispatch (story : Story) (p : Player) : Progress × Player :=
  match p.frames with
  | [] => (.shown .ended, p.stop)
  | frame :: _ =>
    match story.group frame.group with
    | .error fault => (.failed fault, p)
    | .ok (script, group) =>
      match group.nodes[frame.node]? with
      | none =>
        -- The nodes are used up.  What was handed over before a fault stays handed over.
        match p.finishFrame story frame.id with
        | (.ok _, p') => (.running, p')
        | (.error fault, p') => (.failed fault, p')
      | some node =>
        match Act.runNode story script frame.group frame.node node p with
        | .ok (none, p') => (.running, p')
        | .ok (some output, p') => (.shown output, p')
        | .error failure => (.failed failure.fault, failure.reached.rollback p.checkpoint)

/-- The greatest number of steps without anything to show. -/
def guardLimit : Nat := 10000

/-- Takes steps until there is something to show, at most `fuel` of them. -/
def steps (story : Story) : Nat → Player → Except Fault Output × Player
  | 0, p => (.error (.guardExceeded guardLimit), p)
  | fuel + 1, p =>
    match dispatch story p with
    | (.running, p') => steps story fuel p'
    | (.shown output, p') => (.ok output, p')
    | (.failed fault, p') => (.error fault, p')

/-- Plays on to the next thing to show.  A choice that waits is shown again. -/
def next (story : Story) (p : Player) : Except Fault Output × Player :=
  match p.pending with
  | some pending => (.ok pending.output, p)
  | none => if p.ended then (.ok .ended, p) else steps story guardLimit p

/-- Runs an action; one that fails is not put back. -/
def perform (act : Act Unit) (p : Player) : Except Fault Unit × Player :=
  match act p with
  | .ok (_, p') => (.ok (), p')
  | .error failure => (.error failure.fault, failure.reached)

def choose (story : Story) (index : Nat) (p : Player) : Except Fault Unit × Player :=
  perform (Act.choose story index) p

/-! ## Starting -/

def begin (story : Story) (script : String) (arguments : Dict Value) : Except Fault Player :=
  match Dict.get? story.scripts script with
  | none => .error (.entryNotRegistered script)
  | some found =>
    match story.group found.root with
    | .error fault => .error fault
    | .ok _ =>
      match story.locals script arguments with
      | .error fault => .error fault
      | .ok locals => .ok ((fresh story.seed).push (rootFrame found.root locals none))

/-- Starts a script from the beginning, whatever was played before. -/
def start (story : Story) (script : String) (arguments : Dict Value) (p : Player) :
    Except Fault Unit × Player :=
  match begin story script arguments with
  | .ok p' => (.ok (), p')
  | .error fault => (.error fault, p)

end Player
end StoryPlayer
