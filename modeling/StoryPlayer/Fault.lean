/-!
# Faults

Every way in which loading, playing or restoring a story can fail, with what a host is told about
it.

- `Fault` has one case for each cause, with what its message says: also the words of a library,
  where one has failed and has any,
- `Fault.code` and `Fault.message` are what a host is told,
- `Category.ofCode` sorts codes into the groups by which a host decides what to do.
-/

namespace StoryPlayer

inductive Fault
  -- the structure of the scripts
  | groupDeclaredTwice (group first second : String)
  | entryNotRegistered (script : String)
  | scriptNotFound (script : String)
  | groupNotFound (group : String)
  | nodeUnknown (index : Nat) (group : String)
  | callTargetNotFound (script : String)
  | returnTargetNotFound (script : String)
  | noFrame
  | noRootFrame
  -- the contract of calls, choices and loops
  | argumentUndeclared (argument script : String)
  | callArguments (script : String) (passed declared : Nat)
  | returnArguments (script : String) (passed declared : Nat)
  | refMismatch (param script : String) (byRef : Bool)
  | tailRef (script : String)
  | returnRef (script param : String)
  | choiceIndex (index : Nat)
  | noPendingChoice
  | optionNotFound (option : String)
  | choiceFrameGone
  | outsideLoop (keyword : String)
  -- types and values
  | argumentType (argument expected actual : String)
  | variableType (name expected actual : String)
  | variableDeclaredTwice (name : String)
  | initialUndefined (name : String)
  | assignedUndefined (name : String)
  | noValue
  | variableUndefined (name : String)
  | booleanExpected (source actual : String)
  | numberNotFinite (number : String)
  | valueUnsupported (type : String)
  | refValueMissing (name : String)
  -- variables and paths
  | variableUnreadable (name : String)
  | variableUnwritable (name : String)
  | globalReadonly (name : String)
  | pathInvalid (path : String)
  | pathUnreadable (path reason : String)
  | pathUnwritable (path reason : String)
  -- evaluation
  | guardExceeded (steps : Nat)
  | randomArguments (signature : String)
  | expressionFailed (words : Option String)
  | codeFailed (words : Option String)
  -- snapshots
  | snapshotNotAllowed
  | snapshotNotJson (words : Option String)
  | snapshotNotObject
  | snapshotShape (words : Option String)
  | snapshotSchemaField (schema : String)
  | snapshotRngField
  | snapshotWaitingField
  | snapshotItemsField
  | snapshotPromptField
  | snapshotSchema (schema : String)
  | snapshotVersion (saved current : String)
  | snapshotNotWaiting
  | snapshotNoItems
  | snapshotItem (position : Nat)
  | snapshotNoFrames
  | snapshotBottomFrame
  | snapshotFrameOrder
  | snapshotCursor (frame : UInt64) (index : Nat) (group : String)
  | snapshotVariable (name : String) (frame : UInt64)
  | snapshotContinuation (frame target : UInt64)
  | snapshotNoChoice
  | snapshotOtherChoice (saved current : String)
  | snapshotOption (item choice : String)
  | snapshotOnceScript (script : String)
  -- hosts
  | hostNameReserved (name : String)
  | hostRegistryEmpty
  | bundleInvalid (words : Option String)
  | entryMissing (script : String)
  | mainMissing
  | host (code message : String)
  deriving DecidableEq, Repr

inductive Category
  | structural
  | contract
  | typeValue
  | scopePath
  | snapshot
  | guard
  | evaluation
  | host
  deriving DecidableEq, Repr

namespace Category

def name : Category → String
  | .structural => "Structural"
  | .contract => "Contract"
  | .typeValue => "TypeValue"
  | .scopePath => "ScopePath"
  | .snapshot => "Snapshot"
  | .guard => "Guard"
  | .evaluation => "Evaluation"
  | .host => "Host"

def startsWith (beginning s : String) : Bool :=
  beginning.toList.isPrefixOf s.toList

def structuralCodes : List String :=
  ["ENGINE_GROUP_NOT_FOUND", "ENGINE_GROUP_DUPLICATE", "ENGINE_NODE_UNKNOWN",
    "ENGINE_SCRIPT_NOT_FOUND", "ENGINE_CALL_TARGET", "ENGINE_RETURN_TARGET", "ENGINE_NO_FRAME",
    "ENGINE_ROOT_FRAME"]

def contractCodes : List String :=
  ["ENGINE_CALL_REF_MISMATCH", "ENGINE_CALL_ARG_UNKNOWN", "ENGINE_TAIL_REF_UNSUPPORTED",
    "ENGINE_RETURN_REF_UNSUPPORTED", "ENGINE_CHOICE_INDEX", "ENGINE_NO_PENDING_CHOICE",
    "ENGINE_CHOICE_NOT_FOUND", "ENGINE_CHOICE_FRAME_MISSING",
    "ENGINE_WHILE_CONTROL_TARGET_MISSING"]

def typeValueCodes : List String :=
  ["ENGINE_TYPE_MISMATCH", "ENGINE_UNDEFINED_ASSIGN", "ENGINE_VAR_UNDEFINED",
    "ENGINE_VAR_DUPLICATE", "ENGINE_BOOLEAN_EXPECTED", "ENGINE_VALUE_UNSUPPORTED",
    "ENGINE_REF_VALUE_MISSING"]

def scopeCodes : List String :=
  ["ENGINE_VAR_READ", "ENGINE_VAR_WRITE", "ENGINE_GLOBAL_READONLY"]

/-- The group of a code, by its beginning or by the lists; codes of hosts count as evaluation. -/
def ofCode (code : String) : Category :=
  if startsWith "SNAPSHOT_" code then .snapshot
  else if startsWith "API_" code || startsWith "ENGINE_HOST_FUNCTION" code then .host
  else if startsWith "ENGINE_REF_PATH" code then .scopePath
  else if structuralCodes.contains code then .structural
  else if contractCodes.contains code then .contract
  else if typeValueCodes.contains code then .typeValue
  else if scopeCodes.contains code then .scopePath
  else if code == "ENGINE_GUARD_EXCEEDED" then .guard
  else .evaluation

end Category

namespace Fault

def code : Fault → String
  | .groupDeclaredTwice .. => "ENGINE_GROUP_DUPLICATE"
  | .entryNotRegistered _ => "ENGINE_SCRIPT_NOT_FOUND"
  | .scriptNotFound _ => "ENGINE_SCRIPT_NOT_FOUND"
  | .groupNotFound _ => "ENGINE_GROUP_NOT_FOUND"
  | .nodeUnknown .. => "ENGINE_NODE_UNKNOWN"
  | .callTargetNotFound _ => "ENGINE_CALL_TARGET"
  | .returnTargetNotFound _ => "ENGINE_RETURN_TARGET"
  | .noFrame => "ENGINE_NO_FRAME"
  | .noRootFrame => "ENGINE_ROOT_FRAME"
  | .argumentUndeclared .. => "ENGINE_CALL_ARG_UNKNOWN"
  | .callArguments .. => "ENGINE_CALL_ARG_UNKNOWN"
  | .returnArguments .. => "ENGINE_CALL_ARG_UNKNOWN"
  | .refMismatch .. => "ENGINE_CALL_REF_MISMATCH"
  | .tailRef _ => "ENGINE_TAIL_REF_UNSUPPORTED"
  | .returnRef .. => "ENGINE_RETURN_REF_UNSUPPORTED"
  | .choiceIndex _ => "ENGINE_CHOICE_INDEX"
  | .noPendingChoice => "ENGINE_NO_PENDING_CHOICE"
  | .optionNotFound _ => "ENGINE_CHOICE_NOT_FOUND"
  | .choiceFrameGone => "ENGINE_CHOICE_FRAME_MISSING"
  | .outsideLoop _ => "ENGINE_WHILE_CONTROL_TARGET_MISSING"
  | .argumentType .. => "ENGINE_TYPE_MISMATCH"
  | .variableType .. => "ENGINE_TYPE_MISMATCH"
  | .variableDeclaredTwice _ => "ENGINE_VAR_DUPLICATE"
  | .initialUndefined _ => "ENGINE_UNDEFINED_ASSIGN"
  | .assignedUndefined _ => "ENGINE_UNDEFINED_ASSIGN"
  | .noValue => "ENGINE_UNDEFINED_ASSIGN"
  | .variableUndefined _ => "ENGINE_VAR_UNDEFINED"
  | .booleanExpected .. => "ENGINE_BOOLEAN_EXPECTED"
  | .numberNotFinite _ => "ENGINE_VALUE_UNSUPPORTED"
  | .valueUnsupported _ => "ENGINE_VALUE_UNSUPPORTED"
  | .refValueMissing _ => "ENGINE_REF_VALUE_MISSING"
  | .variableUnreadable _ => "ENGINE_VAR_READ"
  | .variableUnwritable _ => "ENGINE_VAR_WRITE"
  | .globalReadonly _ => "ENGINE_GLOBAL_READONLY"
  | .pathInvalid _ => "ENGINE_REF_PATH"
  | .pathUnreadable .. => "ENGINE_REF_PATH_READ"
  | .pathUnwritable .. => "ENGINE_REF_PATH_WRITE"
  | .guardExceeded _ => "ENGINE_GUARD_EXCEEDED"
  | .randomArguments _ => "ENGINE_RANDOM_ARITY"
  | .expressionFailed _ => "ENGINE_EVAL_ERROR"
  | .codeFailed _ => "ENGINE_EVAL_ERROR"
  | .snapshotNotAllowed => "SNAPSHOT_NOT_ALLOWED"
  | .snapshotNotJson _ => "SNAPSHOT_DECODE"
  | .snapshotNotObject => "SNAPSHOT_SHAPE"
  | .snapshotShape _ => "SNAPSHOT_SHAPE"
  | .snapshotSchemaField _ => "SNAPSHOT_SCHEMA"
  | .snapshotRngField => "SNAPSHOT_RNG_STATE"
  | .snapshotWaitingField => "SNAPSHOT_WAITING_CHOICE"
  | .snapshotItemsField => "SNAPSHOT_PENDING_CHOICE_ITEMS"
  | .snapshotPromptField => "SNAPSHOT_PENDING_CHOICE_PROMPT"
  | .snapshotSchema _ => "SNAPSHOT_SCHEMA"
  | .snapshotVersion .. => "SNAPSHOT_COMPILER_VERSION"
  | .snapshotNotWaiting => "SNAPSHOT_WAITING_CHOICE"
  | .snapshotNoItems => "SNAPSHOT_PENDING_CHOICE_ITEMS"
  | .snapshotItem _ => "SNAPSHOT_PENDING_CHOICE_ITEMS"
  | .snapshotNoFrames => "SNAPSHOT_EMPTY"
  | .snapshotBottomFrame => "SNAPSHOT_FRAMES"
  | .snapshotFrameOrder => "SNAPSHOT_FRAMES"
  | .snapshotCursor .. => "SNAPSHOT_FRAMES"
  | .snapshotVariable .. => "SNAPSHOT_FRAME_TYPE"
  | .snapshotContinuation .. => "SNAPSHOT_CONTINUATION"
  | .snapshotNoChoice => "SNAPSHOT_PENDING_CHOICE"
  | .snapshotOtherChoice .. => "SNAPSHOT_PENDING_CHOICE"
  | .snapshotOption .. => "SNAPSHOT_PENDING_CHOICE_ITEMS"
  | .snapshotOnceScript _ => "SNAPSHOT_ONCE_STATE"
  | .hostNameReserved _ => "ENGINE_HOST_FUNCTION_RESERVED"
  | .hostRegistryEmpty => "ENGINE_HOST_FUNCTION_MISSING"
  | .bundleInvalid _ => "API_BUNDLE_DECODE"
  | .entryMissing _ => "API_ENTRY_SCRIPT_NOT_FOUND"
  | .mainMissing => "API_ENTRY_MAIN_NOT_FOUND"
  | .host code _ => code

def named (s : String) : String :=
  "\"" ++ s ++ "\""

def count (n : Nat) : String :=
  String.ofList (Nat.toDigits 10 n)

/-- The words of a library that has failed, as they stand at the end of a message. -/
def afterColon : Option String → String
  | none => ""
  | some words => ": " ++ words

def message : Fault → String
  | .groupDeclaredTwice group first second =>
    "Group " ++ named group ++ " is declared by both " ++ named first ++ " and " ++ named second ++
      "."
  | .entryNotRegistered script => "Entry script " ++ named script ++ " is not registered."
  | .scriptNotFound script => "Script " ++ named script ++ " not found."
  | .groupNotFound group => "Group " ++ named group ++ " not found."
  | .nodeUnknown index group =>
    "Node " ++ count index ++ " of group " ++ named group ++ " has an unknown kind."
  | .callTargetNotFound script => "Call target script " ++ named script ++ " not found."
  | .returnTargetNotFound script => "Return target script " ++ named script ++ " not found."
  | .noFrame => "No runtime frame available."
  | .noRootFrame => "No script root frame found."
  | .argumentUndeclared argument script =>
    "Argument " ++ named argument ++ " is not declared by script " ++ named script ++ "."
  | .callArguments script passed declared =>
    "Call to " ++ named script ++ " passes " ++ count passed ++ " arguments but it declares " ++
      count declared ++ "."
  | .returnArguments script passed declared =>
    "Return to " ++ named script ++ " passes " ++ count passed ++ " arguments but it declares " ++
      count declared ++ "."
  | .refMismatch param script byRef =>
    "Argument " ++ named param ++ " of " ++ named script ++ " must" ++
      (if byRef then "" else " not") ++ " be passed by ref."
  | .tailRef script => "Tail call to " ++ named script ++ " cannot pass ref arguments."
  | .returnRef script param =>
    "Return to " ++ named script ++ " cannot bind " ++ named param ++ " by ref."
  | .choiceIndex index => "Choice index " ++ named (count index) ++ " is out of range."
  | .noPendingChoice => "No pending choice is available."
  | .optionNotFound option => "Choice option " ++ named option ++ " not found."
  | .choiceFrameGone => "Frame owning the pending choice is gone."
  | .outsideLoop keyword => named keyword ++ " used outside of a while body."
  | .argumentType argument expected actual =>
    "Argument " ++ named argument ++ " expects " ++ expected ++ ", got " ++ actual ++ "."
  | .variableType name expected actual =>
    "Variable " ++ named name ++ " expects " ++ expected ++ ", got " ++ actual ++ "."
  | .variableDeclaredTwice name =>
    "Variable " ++ named name ++ " is already declared in this scope."
  | .initialUndefined name =>
    "Variable " ++ named name ++ " cannot be initialized with an undefined value."
  | .assignedUndefined name =>
    "Variable " ++ named name ++ " cannot be assigned an undefined value."
  | .noValue => "Expression produced no value."
  | .variableUndefined name => "Variable " ++ named name ++ " is not defined."
  | .booleanExpected source actual =>
    "Expression " ++ named source ++ " must evaluate to boolean, got " ++ actual ++ "."
  | .numberNotFinite number => "Number " ++ named number ++ " is not finite."
  | .valueUnsupported type => "Unsupported script value type " ++ named type ++ "."
  | .refValueMissing name => "Missing ref value " ++ named name ++ " in callee scope."
  | .variableUnreadable name => "Variable " ++ named name ++ " is not defined."
  | .variableUnwritable name => "Variable " ++ named name ++ " is not defined."
  | .globalReadonly name =>
    "Global JSON " ++ named name ++ " is readonly and cannot be mutated."
  | .pathInvalid path => "Invalid ref path " ++ named path ++ "."
  | .pathUnreadable path reason => "Cannot resolve path " ++ named path ++ ": " ++ reason ++ "."
  | .pathUnwritable path reason => "Cannot resolve path " ++ named path ++ ": " ++ reason ++ "."
  | .guardExceeded steps =>
    "Execution guard exceeded " ++ count steps ++ " steps without producing output."
  | .randomArguments signature =>
    "random() takes no arguments, got " ++ named signature ++ "."
  | .expressionFailed words => "Expression eval failed" ++ afterColon words
  | .codeFailed words => "Code eval failed" ++ afterColon words
  | .snapshotNotAllowed => "snapshot is only allowed while waiting for a choice."
  | .snapshotNotJson words => "Snapshot is not valid JSON" ++ afterColon words
  | .snapshotNotObject => "Snapshot must be a JSON object."
  | .snapshotShape words => "Snapshot has an unexpected shape" ++ afterColon words
  | .snapshotSchemaField schema => "Snapshot schemaVersion must be " ++ named schema ++ "."
  | .snapshotRngField => "Snapshot rngState must be an unsigned 32-bit integer."
  | .snapshotWaitingField => "Snapshot waitingChoice must be true."
  | .snapshotItemsField =>
    "Snapshot pendingChoiceItems must be a list of \x7bindex, id, text\x7d."
  | .snapshotPromptField => "Snapshot pendingChoicePromptText must be a string or null."
  | .snapshotSchema schema => "Unsupported snapshot schema " ++ named schema ++ "."
  | .snapshotVersion saved current =>
    "Snapshot compiler version " ++ named saved ++ " does not match engine " ++ named current ++ "."
  | .snapshotNotWaiting => "Snapshot must be captured while waiting for a choice."
  | .snapshotNoItems => "Pending choice has no items."
  | .snapshotItem position => "Pending choice item " ++ count position ++ " is malformed."
  | .snapshotNoFrames => "Snapshot has no runtime frames."
  | .snapshotBottomFrame => "Bottom snapshot frame must be a script root."
  | .snapshotFrameOrder => "Snapshot frame ids must be strictly increasing."
  | .snapshotCursor frame index group =>
    "Frame " ++ count frame.toNat ++ " cursor " ++ count index ++ " is past the end of group " ++
      named group ++ "."
  | .snapshotVariable name frame =>
    "Variable " ++ named name ++ " in frame " ++ count frame.toNat ++
      " does not match its declared type."
  | .snapshotContinuation frame target =>
    "Frame " ++ count frame.toNat ++ " continues into frame " ++ count target.toNat ++
      " which is not below it."
  | .snapshotNoChoice => "Snapshot cursor does not point at a choice node."
  | .snapshotOtherChoice saved current =>
    "Pending choice " ++ named saved ++ " does not match node " ++ named current ++ "."
  | .snapshotOption item choice =>
    "Pending choice item " ++ named item ++ " is not an option of " ++ named choice ++ "."
  | .snapshotOnceScript script => "Once state refers to unknown script " ++ named script ++ "."
  | .hostNameReserved name =>
    "hostFunctions cannot register reserved builtin name " ++ named name ++ "."
  | .hostRegistryEmpty => "Host function registry is empty."
  | .bundleInvalid words => "Project bundle is not valid" ++ afterColon words
  | .entryMissing script => "Entry script " ++ named script ++ " is not registered."
  | .mainMissing => "Expected script with name=\"main\" as default entry."
  | .host _ message => message

def display (fault : Fault) : String :=
  fault.code ++ ": " ++ fault.message

def category (fault : Fault) : Category :=
  Category.ofCode fault.code

end Fault
end StoryPlayer
