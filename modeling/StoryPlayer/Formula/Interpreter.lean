import StoryPlayer.Formula.Evaluation
import StoryPlayer.Formula.Evaluator
import StoryPlayer.Formula.Parser
import StoryPlayer.Formula.Simplify

/-!
# The interpreter

An evaluator of formulas: a formula is read, simplified, and run on the machine.

- `Machine.start` and `Machine.ending` are what a run starts from and comes to,
- `Interpreter.run` is the run, `interpreter` the evaluator.
-/

namespace StoryPlayer
namespace Formula

namespace Machine

/-- The machine at the start of a run.  Variables are bound from the outermost on. -/
def start (bound : List (String × Datum)) (generator : UInt32) : Machine where
  scope := (bound.map fun entry => ⟨entry.1, .own ⟨entry.2, none⟩⟩).reverse
  cells := #[]
  locked := []
  self := none
  focus := ⟨.unit, none⟩
  level := 0
  steps := 0
  generator := generator
  hostFault := none

def ending (m : Machine) (result : Datum) : Ending where
  result
  scope := m.scope.reverse.map fun binding => (binding.name, (Eval.fetch m binding.slot).datum)
  generator := m.generator

end Machine

def Trouble.cause : Trouble → Cause
  | .undefined name => .undefined name
  | .noFunction signature => .noFunction signature
  | .thrown payload => .thrown payload
  | .failed => .other
  | .exhausted => .other

def ReadFault.cause : ReadFault → Cause
  | .undefined name => .undefined name
  | .malformed => .other

/-- Reads and simplifies a formula and runs it on the machine.  The interpreter has no words for its
failures, and both uses of a formula are one to it. -/
def Interpreter.run (host : HostFunctions) (_ : Use) (text : String)
    (bound : List (String × Datum)) (generator : UInt32) : Except Breakdown Ending :=
  match readProgram (bound.map Prod.fst) text with
  | .error fault => .error ⟨fault.cause, none, none⟩
  | .ok program =>
    match program.simplified.run host (Machine.start bound generator) with
    | (.error trouble, m) => .error ⟨trouble.cause, none, m.hostFault⟩
    | (.ok d, m) => .ok (m.ending d)

def interpreter : Evaluator := ⟨Interpreter.run⟩

end Formula
end StoryPlayer
