import StoryPlayer.Player.Step
import StoryPlayer.Proofs.Revalued

/-!
# What actions lead to

- The lemmas `Act.…_eq_ok` take a successful action apart into the successful actions it is made of,
- `Player.Evaluated` relates the states before and after formulas: values of variables and the
  random number generator may differ, nothing else,
- `Act.Evaluates` holds of the actions that stay within this relation: expressions, conditions,
  texts, arguments and the options of a choice.
-/

namespace StoryPlayer

def Frame.advanced (f : Frame) : Frame :=
  { f with node := f.node + 1 }

/-- New values and moving on do not touch each other. -/
theorem Frame.Revalued.advanced {f g : Frame} (h : f.Revalued g) :
    f.advanced.Revalued g.advanced where
  same := by
    unfold Frame.advanced
    rw [h.same]
  names := h.names
  typed := h.typed

namespace Act

/-! ## Taking successful actions apart -/

section Parts

variable {α β : Type} {p q : Player}

/-- Two actions succeed exactly if the first one leads to a state in which the second one does. -/
theorem bind_eq_ok {a : Act α} {f : α → Act β} {y : β} :
    (a >>= f) p = .ok (y, q) ↔ ∃ x r, a p = .ok (x, r) ∧ f x r = .ok (y, q) := by
  change (a p >>= fun s => f s.1 s.2) = _ ↔ _
  cases h : a p with
  | error fault => simp [bind, Except.bind]
  | ok s =>
      rcases s with ⟨x, r⟩
      simp [bind, Except.bind]

theorem bind_of_ok {a : Act α} {f : α → Act β} {x : α} (h : a p = .ok (x, q)) :
    (a >>= f) p = f x q := by
  change (a p >>= fun s => f s.1 s.2) = _
  rw [h]
  rfl

theorem pure_eq_ok {x y : α} : (pure x : Act α) p = .ok (y, q) ↔ x = y ∧ p = q := by
  change Except.ok (x, p) = _ ↔ _
  simp

theorem get_eq_ok {r : Player} : (get : Act Player) p = .ok (r, q) ↔ p = r ∧ p = q := by
  change Except.ok (p, p) = _ ↔ _
  simp

theorem set_eq_ok {r : Player} {y : PUnit} :
    (set r : Act PUnit) p = .ok (y, q) ↔ q = r := by
  change Except.ok (PUnit.unit, r) = _ ↔ _
  simp [eq_comm]

theorem modify_eq_ok {f : Player → Player} {y : Unit} :
    (modify f : Act Unit) p = .ok (y, q) ↔ q = f p := by
  change Except.ok ((), f p) = _ ↔ _
  simp [eq_comm]

theorem fail_eq_ok {fault : Fault} {y : α} :
    (fail fault : Act α) p = .ok (y, q) ↔ False := by
  simp [fail]

theorem liftM_eq_ok {e : Except Fault α} {y : α} :
    (liftM e : Act α) p = .ok (y, q) ↔ e = .ok y ∧ p = q := by
  cases e with
  | error fault =>
      change Except.error (Failure.mk fault p) = _ ↔ _
      simp
  | ok x =>
      change Except.ok (x, p) = _ ↔ _
      simp

/-- The innermost frame is there exactly if the stack is not empty. -/
theorem top_eq_ok {f : Frame} :
    top p = .ok (f, q) ↔ (∃ below, p.frames = f :: below) ∧ p = q := by
  simp only [top, bind_eq_ok, get_eq_ok]
  cases h : p.frames with
  | nil => simp [h, fail_eq_ok]
  | cons g below =>
      constructor
      · rintro ⟨_, _, ⟨rfl, rfl⟩, hf⟩
        rw [h] at hf
        rcases pure_eq_ok.1 hf with ⟨rfl, rfl⟩
        exact ⟨⟨below, rfl⟩, rfl⟩
      · rintro ⟨⟨_, hf⟩, rfl⟩
        cases hf
        refine ⟨_, _, ⟨rfl, rfl⟩, ?_⟩
        rw [h]
        rfl

/-- Moving on changes the node of the innermost frame and nothing else. -/
theorem advance_eq_ok {y : Unit} :
    advance p = .ok (y, q) ↔ ∃ f below, p.frames = f :: below ∧
      q = { p with frames := f.advanced :: below } := by
  simp only [advance, bind_eq_ok, get_eq_ok]
  cases h : p.frames with
  | nil => simp [h, fail_eq_ok]
  | cons f below => simp [h, setFrames, modify_eq_ok, Frame.advanced]

/-- Other words for faults do not matter to what succeeds. -/
theorem rewording_eq_ok {act : Act α} {change : Fault → Fault} {x : α} :
    rewording change act p = .ok (x, q) ↔ act p = .ok (x, q) := by
  unfold rewording
  cases act p with
  | ok result => exact Iff.rfl
  | error failure => simp

/-! ## Taking failing actions apart -/

/-- Two actions fail if the first one does, or the second one after it; what the first has changed
stays changed. -/
theorem bind_eq_error {a : Act α} {f : α → Act β} {failure : Failure} :
    (a >>= f) p = .error failure ↔
      a p = .error failure ∨ ∃ x r, a p = .ok (x, r) ∧ f x r = .error failure := by
  change (a p >>= fun s => f s.1 s.2) = _ ↔ _
  cases h : a p with
  | error first => simp [bind, Except.bind]
  | ok s =>
      rcases s with ⟨x, r⟩
      simp [bind, Except.bind]

/-- A failure keeps the state in which it occurs. -/
theorem fail_eq_error {fault : Fault} {failure : Failure} :
    (fail fault : Act α) p = .error failure ↔ failure = ⟨fault, p⟩ := by
  simp [fail, eq_comm]

theorem liftM_eq_error {e : Except Fault α} {failure : Failure} :
    (liftM e : Act α) p = .error failure ↔ ∃ fault, e = .error fault ∧ failure = ⟨fault, p⟩ := by
  cases e with
  | error fault =>
      change Except.error (Failure.mk fault p) = _ ↔ _
      simp [eq_comm]
  | ok x =>
      change Except.ok (x, p) = _ ↔ _
      simp

/-- Of a failure only the words change, not the state that was reached. -/
theorem rewording_eq_error {act : Act α} {change : Fault → Fault} {failure : Failure} :
    rewording change act p = .error failure ↔
      ∃ first, act p = .error first ∧ failure = ⟨change first.fault, first.reached⟩ := by
  unfold rewording
  cases act p with
  | ok result => simp
  | error first => simp [eq_comm]

end Parts

end Act

/-! ## States before and after formulas -/

/-- Between the states only formulas were computed: values of variables have changed, and the random
number generator. -/
structure Player.Evaluated (p q : Player) : Prop where
  same : q = { p with frames := q.frames, generator := q.generator }
  frames : Frames.Revalued p.frames q.frames

namespace Player.Evaluated

variable {p q r : Player}

theorem refl (p : Player) : Evaluated p p :=
  ⟨rfl, Frames.Revalued.refl _⟩

theorem trans (hpq : Evaluated p q) (hqr : Evaluated q r) : Evaluated p r where
  same := by
    rw [hqr.same, hpq.same]
  frames := hpq.frames.trans hqr.frames

theorem pending (h : Evaluated p q) : q.pending = p.pending := by rw [h.same]

theorem ended (h : Evaluated p q) : q.ended = p.ended := by rw [h.same]

theorem counter (h : Evaluated p q) : q.counter = p.counter := by rw [h.same]

theorem once (h : Evaluated p q) : q.once = p.once := by rw [h.same]

/-- The innermost frame before and after. -/
theorem cons {f : Frame} {below : List Frame} (h : Evaluated p q) (hq : q.frames = f :: below) :
    ∃ g under, p.frames = g :: under ∧ g.Revalued f ∧ Frames.Revalued under below := by
  have hframes := h.frames
  rw [hq] at hframes
  cases hp : p.frames with
  | nil =>
      rw [hp] at hframes
      cases hframes
  | cons g under =>
      rw [hp] at hframes
      cases hframes with
      | cons hhead htail => exact ⟨g, under, rfl, hhead, htail⟩

/-- The innermost frame stays innermost. -/
theorem top {f : Frame} {below : List Frame} (h : Evaluated p q) (hp : p.frames = f :: below) :
    ∃ g under, q.frames = g :: under ∧ f.Revalued g := by
  have hframes := h.frames
  rw [hp] at hframes
  cases hq : q.frames with
  | nil =>
      rw [hq] at hframes
      cases hframes
  | cons g under =>
      rw [hq] at hframes
      cases hframes with
      | cons hhead _ => exact ⟨g, under, rfl, hhead⟩

end Player.Evaluated

/-! ## Actions that only compute formulas -/

/-- The action only computes formulas, also if it fails on the way. -/
structure Act.Evaluates {α : Type} (a : Act α) : Prop where
  ok : ∀ {p x q}, a p = .ok (x, q) → Player.Evaluated p q
  error : ∀ {p failure}, a p = .error failure → Player.Evaluated p failure.reached

namespace Act
namespace Evaluates

variable {α β : Type}

theorem pure (x : α) : Evaluates (Pure.pure x : Act α) where
  ok := by
    intro p y q h
    rcases pure_eq_ok.1 h with ⟨-, rfl⟩
    exact Player.Evaluated.refl _
  error h := by cases h

theorem bind {a : Act α} {f : α → Act β} (ha : Evaluates a) (hf : ∀ x, Evaluates (f x)) :
    Evaluates (a >>= f) where
  ok := by
    intro p y q h
    rcases bind_eq_ok.1 h with ⟨x, r, hx, hy⟩
    exact (ha.ok hx).trans ((hf x).ok hy)
  error := by
    intro p failure h
    rcases bind_eq_error.1 h with hfirst | ⟨x, r, hx, hlater⟩
    · exact ha.error hfirst
    · exact (ha.ok hx).trans ((hf x).error hlater)

theorem get : Evaluates (MonadState.get : Act Player) where
  ok := by
    intro p y q h
    rcases get_eq_ok.1 h with ⟨-, rfl⟩
    exact Player.Evaluated.refl _
  error h := by cases h

theorem fail (fault : Fault) : Evaluates (Act.fail fault : Act α) where
  ok h := (fail_eq_ok.1 h).elim
  error := by
    intro p failure h
    rcases fail_eq_error.1 h with rfl
    exact Player.Evaluated.refl _

theorem liftM (e : Except Fault α) : Evaluates (MonadLiftT.monadLift e : Act α) where
  ok := by
    intro p y q h
    rcases liftM_eq_ok.1 h with ⟨-, rfl⟩
    exact Player.Evaluated.refl _
  error := by
    intro p failure h
    rcases liftM_eq_error.1 h with ⟨fault, -, rfl⟩
    exact Player.Evaluated.refl _

end Evaluates

open Evaluates

variable (story : Story)

/-- Taking over updates gives variables new values and moves the generator on. -/
theorem evaluates_accept {α : Type} (outcome : Formula.Outcome α) :
    Evaluates (accept outcome) where
  ok := by
    intro p x q h
    rcases bind_eq_ok.1 h with ⟨_, _, hget, hcommits⟩
    rcases get_eq_ok.1 hget with ⟨rfl, rfl⟩
    rcases bind_eq_ok.1 hcommits with ⟨frames, _, hlift, hsets⟩
    rcases liftM_eq_ok.1 hlift with ⟨hcommit, rfl⟩
    rcases bind_eq_ok.1 hsets with ⟨_, _, hset, hreturn⟩
    rcases set_eq_ok.1 hset with rfl
    rcases pure_eq_ok.1 hreturn with ⟨-, rfl⟩
    exact ⟨rfl, Frames.revalued_of_commit hcommit⟩
  error := by
    -- Only the look at the new values can fail, before any of them is taken over.
    intro p failure h
    rcases bind_eq_error.1 h with hget | ⟨_, _, hget, hcommits⟩
    · cases hget
    · rcases get_eq_ok.1 hget with ⟨rfl, rfl⟩
      rcases bind_eq_error.1 hcommits with hlift | ⟨_, _, -, hsets⟩
      · rcases liftM_eq_error.1 hlift with ⟨fault, -, rfl⟩
        exact Player.Evaluated.refl p
      · cases hsets

theorem evaluates_evaluate (source : String) : Evaluates (evaluate story source) :=
  Evaluates.get.bind fun _ => (Evaluates.liftM _).bind fun outcome => evaluates_accept outcome

theorem evaluates_execute (source : String) : Evaluates (execute story source) :=
  Evaluates.get.bind fun _ => (Evaluates.liftM _).bind fun outcome => evaluates_accept outcome

theorem evaluates_condition (source : String) : Evaluates (condition story source) := by
  refine (evaluates_evaluate story source).bind fun value => ?_
  cases value with
  | bool b => exact Evaluates.pure b
  | _ => exact Evaluates.fail _

/-- Filling holes computes formulas one after the other and does nothing else. -/
theorem evaluates_renderHoles (holes : List (String × String)) :
    Evaluates (renderHoles story holes) := by
  induction holes with
  | nil => exact Evaluates.pure ""
  | cons hole rest ih =>
      rcases hole with ⟨source, text⟩
      exact (evaluates_evaluate story source).bind fun _ => ih.bind fun _ => Evaluates.pure _

theorem evaluates_render (text : String) : Evaluates (render story text) :=
  (evaluates_renderHoles story _).bind fun _ => Evaluates.pure _

theorem evaluates_renderOptional (text : Option String) :
    Evaluates (renderOptional story text) := by
  cases text with
  | none => exact Evaluates.pure none
  | some text => exact (evaluates_render story text).bind fun _ => Evaluates.pure _

/-- Whether an option may be offered is found out by a formula at most. -/
theorem evaluates_available (script : String) (option : ChoiceOption) :
    Evaluates (available story script option) := by
  refine Evaluates.get.bind fun p => ?_
  split
  · exact Evaluates.pure false
  · split
    · exact evaluates_condition story _
    · exact Evaluates.pure true

theorem evaluates_filterAvailable (script : String) (options : List ChoiceOption) :
    Evaluates (filterAvailable story script options) := by
  induction options with
  | nil => exact Evaluates.pure []
  | cons option rest ih =>
      exact (evaluates_available story script option).bind fun _ =>
        ih.bind fun _ => Evaluates.pure _

/-- Nothing is marked as used by offering it. -/
theorem evaluates_offered (script : String) (options : List ChoiceOption) :
    Evaluates (offered story script options) := by
  refine (evaluates_filterAvailable story script _).bind fun ordinary => ?_
  split
  · split
    · exact evaluates_filterAvailable story script _
    · exact Evaluates.pure []
  · exact Evaluates.pure ordinary

theorem evaluates_renderOptions (index : Nat) (options : List ChoiceOption) :
    Evaluates (renderOptions story index options) := by
  induction options generalizing index with
  | nil => exact Evaluates.pure []
  | cons option rest ih =>
      exact (evaluates_render story option.text).bind fun _ =>
        (ih (index + 1)).bind fun _ => Evaluates.pure _

theorem evaluates_passArgument (script : String) (param : Param) (argument : Argument)
    (passed : Passed) : Evaluates (passArgument story script param argument passed) := by
  unfold passArgument
  split
  · exact Evaluates.fail _
  · split
    · exact Evaluates.get.bind fun _ => (Evaluates.liftM _).bind fun _ => Evaluates.pure _
    · exact (evaluates_evaluate story _).bind fun _ => Evaluates.pure _

/-- The callee is started only after all arguments have been computed. -/
theorem evaluates_passArguments (script : String) (excess : Fault) (params : List Param)
    (arguments : List Argument) (passed : Passed) :
    Evaluates (passArguments story script excess params arguments passed) := by
  induction arguments generalizing params passed with
  | nil =>
      rw [passArguments]
      exact Evaluates.pure passed
  | cons argument rest ih =>
      cases params with
      | nil => exact Evaluates.fail excess
      | cons param params =>
          exact (evaluates_passArgument story script param argument passed).bind fun _ => ih _ _

theorem evaluates_transferArguments (script : String) (excess : Fault) (params : List Param)
    (arguments : List Argument) (values : Dict Value) :
    Evaluates (transferArguments story script excess params arguments values) := by
  induction arguments generalizing params values with
  | nil =>
      rw [transferArguments]
      exact Evaluates.pure values
  | cons argument rest ih =>
      cases params with
      | nil => exact Evaluates.fail excess
      | cons param params =>
          refine Evaluates.bind ?_ fun _ => ih _ _
          unfold transferArgument
          split
          · exact Evaluates.fail _
          · exact (evaluates_evaluate story _).bind fun _ => Evaluates.pure _

end Act
end StoryPlayer
