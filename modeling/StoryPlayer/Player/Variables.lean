import StoryPlayer.Formula.Outcome
import StoryPlayer.Path
import StoryPlayer.Player.Basic

/-!
# Variables of a running story

A name means the variable of the innermost frame that declares it; a name that no frame declares may
be that of a document that is open to the running script.

- `Frames.read`, `Frames.write` work on a variable, `Frames.readPath`, `Frames.writePath` on a part
  of it,
- `Frames.bindings` is what a formula sees, `Frames.commit` takes over what it has changed.
-/

namespace StoryPlayer
namespace Frames

/-! ## Names -/

def declaring? (frames : List Frame) (name : String) : Option Frame :=
  frames.find? fun frame => Dict.contains frame.scope name

def value? (frames : List Frame) (name : String) : Option Value :=
  (declaring? frames name).bind fun frame => Dict.get? frame.scope name

def documents (story : Story) (frames : List Frame) : Dict Value :=
  match frames with
  | [] => []
  | frame :: _ =>
    match story.owner? frame.group with
    | some script => story.visible script
    | none => []

/-- The name is that of a document that the running script may look into. -/
def isDocument (story : Story) (frames : List Frame) (name : String) : Bool :=
  Dict.contains (documents story frames) name

/-! ## Reading and writing -/

def read (story : Story) (frames : List Frame) (name : String) : Except Fault Value :=
  match value? frames name with
  | some value => .ok value
  | none =>
    match Dict.get? (documents story frames) name with
    | some value => .ok value
    | none => .error (.variableUnreadable name)

/-- A declared variable takes values of its type only. -/
def checkType (frame : Frame) (name : String) (value : Value) : Except Fault Unit :=
  match Dict.get? frame.types name with
  | some type =>
    if Value.fits type value then .ok () else .error (.variableType name type.describe value.kind)
  | none => .ok ()

def set (name : String) (value : Value) : List Frame → List Frame
  | [] => []
  | frame :: below =>
    if Dict.contains frame.scope name then
      { frame with scope := Dict.insert frame.scope name value } :: below
    else frame :: set name value below

def unwritable (story : Story) (frames : List Frame) (name : String) : Fault :=
  if isDocument story frames name then .globalReadonly name else .variableUnwritable name

def write (story : Story) (frames : List Frame) (name : String) (value : Value) :
    Except Fault (List Frame) :=
  match declaring? frames name with
  | some frame =>
    match checkType frame name value with
    | .ok _ => .ok (set name value frames)
    | .error fault => .error fault
  | none => .error (unwritable story frames name)

/-! ## Paths -/

def readPath (story : Story) (frames : List Frame) (text : String) : Except Fault Value := do
  let path ← Path.parse text
  let root ← read story frames path.root
  match root.lookup path.rest with
  | .ok value => return value
  | .error obstacle => throw (.pathUnreadable text obstacle.reason)

/-- The value of an argument that is passed by reference; documents cannot be passed so. -/
def readRef (story : Story) (frames : List Frame) (text : String) : Except Fault Value := do
  let path ← Path.parse text
  if (declaring? frames path.root).isNone && isDocument story frames path.root then
    throw (.globalReadonly path.root)
  readPath story frames text

def writePath (story : Story) (frames : List Frame) (text : String) (value : Value) :
    Except Fault (List Frame) := do
  let path ← Path.parse text
  match path.rest with
  | [] => write story frames path.root value
  | rest =>
    match value? frames path.root with
    | none => throw (unwritable story frames path.root)
    | some root =>
      match root.assign rest value with
      | .ok root => write story frames path.root root
      | .error obstacle => throw (.pathUnwritable text obstacle.reason)

/-! ## Formulas -/

/-- The variables of all frames, innermost first; `seen` are the names found before. -/
def collect (seen : List String) : List Frame → List (String × Value)
  | [] => []
  | frame :: below =>
    let found := frame.scope.filter fun entry => !seen.contains entry.1
    found ++ collect (seen ++ found.map Prod.fst) below

def bindings (story : Story) (frames : List Frame) : Formula.Bindings :=
  let scope := collect [] frames
  { scope
    documents := (documents story frames).filter fun entry =>
      !(scope.map Prod.fst).contains entry.1 }

def accepts (frames : List Frame) (update : String × Value) : Except Fault Unit :=
  match declaring? frames update.1 with
  | some frame => checkType frame update.1 update.2
  | none => .error (.variableUnwritable update.1)

def acceptsAll (frames : List Frame) : List (String × Value) → Except Fault Unit
  | [] => .ok ()
  | update :: rest =>
    match accepts frames update with
    | .ok _ => acceptsAll frames rest
    | .error fault => .error fault

/-- Takes over what a formula has changed: all of it, or nothing. -/
def commit (frames : List Frame) (updates : List (String × Value)) :
    Except Fault (List Frame) :=
  -- All values are checked before the first one is written.
  match acceptsAll frames updates with
  | .ok _ => .ok (updates.foldl (fun frames update => set update.1 update.2 frames) frames)
  | .error fault => .error fault

end Frames

/-! ## Formulas in a running story -/

namespace Act

def accept {α : Type} (outcome : Formula.Outcome α) : Act α := do
  let p ← get
  let frames ← liftM (Frames.commit p.frames outcome.updates)
  set { p with frames, generator := outcome.generator }
  return outcome.result

def evaluate (story : Story) (source : String) : Act Value := do
  let p ← get
  accept (← liftM (Formula.evaluate story.evaluator story.host source
    (Frames.bindings story p.frames) p.generator))

def execute (story : Story) (source : String) : Act Unit := do
  let p ← get
  accept (← liftM (Formula.execute story.evaluator story.host source
    (Frames.bindings story p.frames) p.generator))

def condition (story : Story) (source : String) : Act Bool := do
  match ← evaluate story source with
  | .bool b => return b
  | value => fail (.booleanExpected source value.kind)

end Act
end StoryPlayer
