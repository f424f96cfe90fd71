import Mathlib.Data.Nat.ModEq
import Mathlib.Logic.Function.Iterate
import StoryPlayer.Formula.Machine

/-!
# The cycle of random numbers

Every draw moves the state of the generator by the same odd distance, whatever the number that is
drawn.  So the state after any number of draws can be computed at once, and the states run through
all numbers of 32 bits before the first of them comes back.

- `Generator.after` is the state after a number of draws,
- `Generator.after_eq` computes it, `Generator.after_eq_iff` says which draws lead to the same
  state, and `Generator.exists_after` that every state is reached,
- `Generator.draws_add` continues a sequence of draws from a state that was kept, and
  `Formula.Eval.mapM_random` finds the same sequence in formulas,
- `Generator.full_period` joins them.
-/

namespace StoryPlayer
namespace Generator

def move (state : UInt32) : UInt32 :=
  (next state).2

def after (n : Nat) (seed : UInt32) : UInt32 :=
  move^[n] seed

/-! ## States -/

/-- The number that is drawn does not matter. -/
theorem move_eq (state : UInt32) : move state = state + step := rfl

theorem after_zero (seed : UInt32) : after 0 seed = seed := rfl

theorem after_succ (n : Nat) (seed : UInt32) : after (n + 1) seed = after n (move seed) :=
  Function.iterate_succ_apply move n seed

/-- Drawing goes on from the state that earlier draws have left. -/
theorem after_add (n k : Nat) (seed : UInt32) : after (n + k) seed = after k (after n seed) := by
  rw [Nat.add_comm]
  exact Function.iterate_add_apply move k n seed

/-- The state is moved by one distance for each draw. -/
theorem after_eq (n : Nat) (seed : UInt32) : after n seed = seed + UInt32.ofNat n * step := by
  induction n generalizing seed with
  | zero => simp [after_zero]
  | succ n ih =>
      calc
        after (n + 1) seed = seed + step + UInt32.ofNat n * step := by rw [after_succ, ih, move_eq]
        _ = seed + (UInt32.ofNat n * step + step) := by rw [UInt32.add_assoc, UInt32.add_comm step]
        _ = seed + UInt32.ofNat (n + 1) * step := by
          rw [UInt32.ofNat_add, UInt32.add_mul, UInt32.ofNat_one, UInt32.one_mul]

def stepInverse : UInt32 := 0xdc58aa5d

/-- The distance between states is odd, so it has an inverse among words of 32 bits. -/
theorem step_mul_stepInverse : step * stepInverse = 1 := by
  decide

/-- Different multiples of the distance are different, since the distance has an inverse. -/
theorem mul_step_inj {a b : UInt32} : a * step = b * step ↔ a = b := by
  refine ⟨fun h => ?_, fun h => by rw [h]⟩
  have hback : ∀ c : UInt32, c * step * stepInverse = c := fun c => by
    rw [UInt32.mul_assoc, step_mul_stepInverse, UInt32.mul_one]
  rw [← hback a, h, hback]

/-- Counts give the same word exactly if they are congruent. -/
theorem ofNat_eq_iff {i j : Nat} : UInt32.ofNat i = UInt32.ofNat j ↔ i ≡ j [MOD UInt32.size] := by
  rw [← UInt32.toNat_inj, UInt32.toNat_ofNat', UInt32.toNat_ofNat', Nat.ModEq, UInt32.size]

/-- The same state comes back after as many draws as there are states, and not before. -/
theorem after_eq_iff {i j : Nat} {seed : UInt32} :
    after i seed = after j seed ↔ i ≡ j [MOD UInt32.size] := by
  rw [after_eq, after_eq, UInt32.add_right_inj, mul_step_inj, ofNat_eq_iff]

/-- Every state is that after some draws, at least one and at most as many as there are states. -/
theorem exists_after (seed state : UInt32) : ∃ n, n < UInt32.size ∧ after (n + 1) seed = state := by
  -- The way from the seed to the state, measured in distances; the first draw is not counted.
  refine ⟨((state - seed) * stepInverse - 1).toNat, UInt32.toNat_lt_size _, ?_⟩
  have hway : ((state - seed) * stepInverse - 1 + 1) * step = state - seed := by
    rw [UInt32.sub_add_cancel, UInt32.mul_assoc, UInt32.mul_comm stepInverse,
      step_mul_stepInverse, UInt32.mul_one]
  rw [after_eq, UInt32.ofNat_add, UInt32.ofNat_toNat, UInt32.ofNat_one, hway, UInt32.add_comm,
    UInt32.sub_add_cancel]

/-! ## Numbers -/

theorem length_draws (n : Nat) (seed : UInt32) : (draws n seed).length = n := by
  induction n generalizing seed with
  | zero => rfl
  | succ n ih => rw [draws, List.length_cons, ih]

/-- Draws after other ones are those from the state that the others have left. -/
theorem draws_add (n k : Nat) (seed : UInt32) :
    draws (n + k) seed = draws n seed ++ draws k (after n seed) := by
  induction n generalizing seed with
  | zero => rw [Nat.zero_add, draws, List.nil_append, after_zero]
  | succ n ih => rw [Nat.succ_add, draws, draws, ih, after_succ, List.cons_append, move]

end Generator

/-! ## Formulas -/

namespace Formula
namespace Eval

variable {α β : Type}

theorem bind_of_ok {x : Eval α} {f : α → Eval β} {m m' : Machine} {a : α} (h : x m = .ok a m') :
    (x >>= f) m = f a m' := by
  change EStateM.bind x f m = f a m'
  rw [EStateM.bind, h]

/-- A formula that asks for random numbers one after the other gets those of the sequence, and
leaves the state after them. -/
theorem mapM_random (n : Nat) (m : Machine) :
    (List.replicate n random).mapM id m =
      .ok ((Generator.draws n m.generator).map fun draw => .int draw.1.toNat)
        { m with generator := Generator.after n m.generator } := by
  -- By induction on the draws; those after the first one start with the state that it leaves.
  induction n generalizing m with
  | zero => rfl
  | succ n ih =>
      have hdraw : random m =
          .ok (.int (Generator.next m.generator).1.toNat)
            { m with generator := Generator.move m.generator } := rfl
      rw [List.replicate_succ, List.mapM_cons, id, bind_of_ok hdraw, bind_of_ok (ih _),
        Generator.draws, Generator.after_succ]
      rfl

end Eval
end Formula

namespace Generator

/-- The generator has a full period.  The state after a number of draws is known from their number,
it is the same after two numbers of draws exactly if they are congruent, so as many draws as there
are states visit each of them once.  A sequence of draws can be continued from the state that was
kept after some of them, also in a formula that is run with that state. -/
theorem full_period (seed : UInt32) :
    (∀ n, after n seed = seed + UInt32.ofNat n * step) ∧
    (∀ i j, after i seed = after j seed ↔ i ≡ j [MOD UInt32.size]) ∧
    (∀ state, ∃! n, n < UInt32.size ∧ after (n + 1) seed = state) ∧
    (∀ n k, (draws (n + k) seed).drop n = draws k (after n seed)) ∧
    ∀ n k (m : Formula.Machine),
      (List.replicate k Formula.Eval.random).mapM id { m with generator := after n seed } =
        .ok (((draws (n + k) seed).drop n).map fun draw => .int draw.1.toNat)
          { m with generator := after (n + k) seed } := by
  have hdrop : ∀ n k, (draws (n + k) seed).drop n = draws k (after n seed) := fun n k => by
    rw [draws_add, List.drop_left' (length_draws n seed)]
  refine ⟨fun n => after_eq n seed, fun i j => after_eq_iff, fun state => ?_, hdrop,
    fun n k m => ?_⟩
  · rcases exists_after seed state with ⟨n, hlt, hafter⟩
    refine ⟨n, ⟨hlt, hafter⟩, fun other hother => ?_⟩
    -- Two such numbers are congruent, and smaller than the modulus.
    have hcongruent : other + 1 ≡ n + 1 [MOD UInt32.size] :=
      after_eq_iff.1 (hother.2.trans hafter.symm)
    exact (hcongruent.add_right_cancel' 1).eq_of_lt_of_lt hother.1 hlt
  · rw [Formula.Eval.mapM_random, hdrop, after_add]

end Generator
end StoryPlayer
