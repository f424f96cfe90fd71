import StoryPlayer.Player.Stack

/-!
# Calls between scripts

A call runs another script and goes on after it.  A call that is the last thing its caller has to do
replaces the caller.  A script may also end by handing over to another one.

- `Act.call` calls a script,
- `Act.leaveScript` ends the running script, `Act.transfer` replaces it by another one.
-/

namespace StoryPlayer
namespace Act

/-- The arguments of a call: values by parameter, and the paths of those passed by reference. -/
structure Passed where
  values : Dict Value
  refs : Dict String

def passArgument (story : Story) (script : String) (param : Param) (argument : Argument)
    (passed : Passed) : Act Passed := do
  if param.byRef != argument.byRef then
    fail (.refMismatch param.name script param.byRef)
  else if argument.byRef then
    let value ← liftM (Frames.readRef story (← get).frames argument.source)
    return {
      values := Dict.insert passed.values param.name value
      refs := Dict.insert passed.refs param.name argument.source }
  else
    let value ← evaluate story argument.source
    return { passed with values := Dict.insert passed.values param.name value }

/-- Computes the arguments of a call in order.  `excess` is the fault of an argument without a
parameter. -/
def passArguments (story : Story) (script : String) (excess : Fault) :
    List Param → List Argument → Passed → Act Passed
  | _, [], passed => return passed
  | [], _ :: _, _ => fail excess
  | param :: params, argument :: arguments, passed => do
    let passed ← passArgument story script param argument passed
    passArguments story script excess params arguments passed

/-- The call is the last node of a script that has a caller of its own. -/
def isTailCall (caller : Frame) (size : Nat) : Bool :=
  caller.root && caller.continuation.isSome && caller.node + 1 == size

def call (story : Story) (target : String) (arguments : List Argument) : Act Unit := do
  let caller ← top
  let (_, group) ← liftM (story.group caller.group)
  match Dict.get? story.scripts target with
  | none => fail (.callTargetNotFound target)
  | some script =>
    let _ ← liftM (story.group script.root)
    let excess := Fault.callArguments target arguments.length script.params.length
    let passed ← passArguments story target excess script.params arguments ⟨[], []⟩
    -- A caller that is replaced could not receive anything by reference.
    let tail := isTailCall caller group.nodes.length
    if tail && !passed.refs.isEmpty then fail (.tailRef target)
    let locals ← liftM (story.locals target passed.values)
    if tail then
      setFrames ((← get).frames.drop 1)
      pushRoot script.root locals caller.continuation
    else
      pushRoot script.root locals (some ⟨caller.id, caller.node + 1, passed.refs⟩)

/-! ## Ending scripts -/

/-- The innermost frame in which a script has started, and the frames below it. -/
def currentRoot : Act (Frame × List Frame) := do
  match Frames.currentRoot? (← get).frames with
  | some found => return found
  | none => fail .noRootFrame

def leaveScript (story : Story) : Act Unit := do
  let (root, below) ← currentRoot
  setFrames below
  settle story root.scope root.continuation

def transferArgument (story : Story) (script : String) (param : Param) (argument : Argument)
    (values : Dict Value) : Act (Dict Value) := do
  if argument.byRef || param.byRef then fail (.returnRef script param.name)
  else
    let value ← evaluate story argument.source
    return Dict.insert values param.name value

def transferArguments (story : Story) (script : String) (excess : Fault) :
    List Param → List Argument → Dict Value → Act (Dict Value)
  | _, [], values => return values
  | [], _ :: _, _ => fail excess
  | param :: params, argument :: arguments, values => do
    let values ← transferArgument story script param argument values
    transferArguments story script excess params arguments values

/-- Hands over the parameters of a script that were passed by reference, if its caller is still
there. -/
def handOver (story : Story) (scope : Dict Value) (continuation : Continuation) : Act Unit := do
  let frames := (← get).frames
  if Frames.has frames continuation.frame then
    match Frames.writeBack story scope continuation.refs frames with
    | (.ok _, frames) => setFrames frames
    | (.error fault, frames) =>
      setFrames frames
      fail fault

/-- Replaces the running script by another one, which returns to the same caller. -/
def transfer (story : Story) (target : String) (arguments : List Argument) : Act Unit := do
  let _ ← currentRoot
  match Dict.get? story.scripts target with
  | none => fail (.returnTargetNotFound target)
  | some script =>
    let _ ← liftM (story.group script.root)
    let excess := Fault.returnArguments target arguments.length script.params.length
    let values ← transferArguments story target excess script.params arguments []
    let locals ← liftM (story.locals target values)
    -- Only now, with everything computed, the running script goes away.
    let (root, below) ← currentRoot
    setFrames below
    match root.continuation with
    | none => pushRoot script.root locals none
    | some continuation =>
      handOver story root.scope continuation
      pushRoot script.root locals (some { continuation with refs := [] })

end Act
end StoryPlayer
