import StoryPlayer.Formula.Datum
import StoryPlayer.Host

/-!
# Evaluators

The player does not run formulas itself.  It hands the text of a formula and the variables that are
bound for it to an evaluator, and takes back what has become of the variables.

- `Evaluator` is what the player asks of one: a run comes to an `Ending`, or to a `Breakdown`,
- `Evaluator.KeepsNames` says that a run leaves the bound variables where they were bound.

Little is known of an evaluator, and most of what the player guarantees does not depend on it.  The
law on names is asked for only where a result needs it.
-/

namespace StoryPlayer
namespace Formula

inductive Use
  | expression
  | code
  deriving DecidableEq, Repr

/-- Why a run has failed, as far as causes are told apart. -/
inductive Cause
  | undefined (name : String)
  /-- No function has the name for arguments of these kinds. -/
  | noFunction (signature : String)
  /-- A formula or a host function has given up with a payload. -/
  | thrown (payload : Datum)
  | other

/-- A run that has failed: its cause, and how the evaluator puts the failure in words. -/
structure Breakdown where
  cause : Cause
  words : Option String
  /-- The last failure of a host function. -/
  hostFault : Option Fault

structure Ending where
  result : Datum
  /-- The variables at the end of the run, outermost first. -/
  scope : List (String × Datum)
  generator : UInt32

/-- Runs the text of a formula on variables, outermost first. -/
structure Evaluator where
  run : HostFunctions → Use → String → List (String × Datum) → UInt32 → Except Breakdown Ending

/-- What was bound for a run is still bound at its end, under the same names and in the same order.
What the formula has declared itself comes after it. -/
def Evaluator.KeepsNames (evaluator : Evaluator) : Prop :=
  ∀ host use text bound generator ending,
    evaluator.run host use text bound generator = .ok ending →
      bound.map Prod.fst <+: ending.scope.map Prod.fst

end Formula
end StoryPlayer
