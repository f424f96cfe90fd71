import StoryPlayer.Formula.Evaluator

/-!
# Formulas over the variables of a story

A formula sees the variables of a story and the documents that are open to it.  It may change
variables; a document must be left as it was.

- `Bindings` are the values that a formula sees,
- `Outcome` is what a formula leads to,
- `evaluate` computes an expression, `execute` runs code, both with an evaluator.
-/

namespace StoryPlayer
namespace Formula

/-- The values that a formula sees: variables, which it may change, and documents. -/
structure Bindings where
  scope : List (String × Value)
  documents : List (String × Value)

/-- What a formula leads to: a result, the variables it has changed, and the state of the random
number generator. -/
structure Outcome (α : Type) where
  result : α
  updates : List (String × Value)
  generator : UInt32

namespace Use

/-- The text that is run: an expression stands between brackets. -/
def text (use : Use) (source : String) : String :=
  match use with
  | .expression => "(" ++ source ++ ")"
  | .code => source

/-- The fault of a formula that fails for reasons of its own. -/
def failure (use : Use) (words : Option String) : Fault :=
  match use with
  | .expression => .expressionFailed words
  | .code => .codeFailed words

end Use

/-! ## Before a run -/

/-- All values in the order in which they are bound: documents come after the variables. -/
def Bindings.all (b : Bindings) : List (String × Value) :=
  b.scope ++ b.documents

def Bindings.data (b : Bindings) : List (String × Datum) :=
  b.all.map fun entry => (entry.1, .ofValue entry.2)

/-! ## After a run -/

def Ending.data (ending : Ending) : List Datum :=
  ending.scope.map Prod.snd

/-- The fault of a variable whose datum is no value. -/
def variableFault (name : String) : Fault → Fault
  | .noValue => .assignedUndefined name
  | fault => fault

/-- The variables whose values have changed; every one of them must have a value. -/
def changes : List (String × Value) → List Datum → Except Fault (List (String × Value))
  | (name, before) :: rest, d :: data =>
    match d.toValue with
    | .error fault => .error (variableFault name fault)
    | .ok after =>
      match changes rest data with
      | .error fault => .error fault
      | .ok others => .ok (if after == before then others else (name, after) :: others)
  | _, _ => .ok []

def unchanged (before : Value) (d : Datum) : Bool :=
  match d.toValue with
  | .ok after => after == before
  | .error _ => false

def untouched : List (String × Value) → List Datum → Except Fault Unit
  | (name, before) :: rest, d :: data =>
    if unchanged before d then untouched rest data else .error (.globalReadonly name)
  | _, _ => .ok ()

/-! ## Failures -/

/-- The run has ended because of the failure of the host function itself, not of something that came
after it. -/
def raisedBy (fault : Fault) : Cause → Bool
  | .thrown (.text s) => s == fault.display
  | _ => false

def isRandom (signature : String) : Bool :=
  let name := HostFunctions.randomName.toList
  name.isPrefixOf signature.toList &&
    match signature.toList.drop name.length with
    | [] => true
    | c :: _ => c == ' ' || c == '('

def ownFault (use : Use) (words : Option String) : Cause → Fault
  | .undefined name => .variableUndefined name
  | .noFunction signature =>
    if isRandom signature then .randomArguments signature else use.failure words
  | _ => use.failure words

/-- The fault that ends a run.  A failure of a host function is passed on. -/
def faultOf (use : Use) (b : Breakdown) : Fault :=
  match b.hostFault with
  | some fault => if raisedBy fault b.cause then fault else ownFault use b.words b.cause
  | none => ownFault use b.words b.cause

/-! ## Runs -/

section Runs

variable (evaluator : Evaluator) (host : HostFunctions)

def runText (use : Use) (source : String) (b : Bindings) (generator : UInt32) :
    Except Fault Ending :=
  match evaluator.run host use (use.text source) b.data generator with
  | .error breakdown => .error (faultOf use breakdown)
  | .ok ending => .ok ending

def runChecked (use : Use) (source : String) (b : Bindings) (generator : UInt32) :
    Except Fault (Outcome Datum) := do
  let ending ← runText evaluator host use source b generator
  -- Faults of variables come before faults of documents.
  let updates ← changes b.scope ending.data
  untouched b.documents (ending.data.drop b.scope.length)
  return { result := ending.result, updates, generator := ending.generator }

def evaluate (source : String) (b : Bindings) (generator : UInt32) :
    Except Fault (Outcome Value) := do
  let outcome ← runChecked evaluator host .expression source b generator
  let result ← outcome.result.toValue
  return { outcome with result }

def execute (source : String) (b : Bindings) (generator : UInt32) :
    Except Fault (Outcome Unit) := do
  let outcome ← runChecked evaluator host .code source b generator
  return { outcome with result := () }

end Runs

end Formula
end StoryPlayer
