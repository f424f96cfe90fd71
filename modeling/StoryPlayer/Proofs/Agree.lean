import StoryPlayer.Proofs.Anonymous
import StoryPlayer.Proofs.Effect

/-!
# Actions in two states

- `Agree` relates results of actions: both fail with the same fault, or both succeed with related
  values and states,
- `Act.Agrees` holds of actions that lead from related states to results that agree,
- `Similarity` holds of relations of states in which formulas see the same; the actions that only
  compute formulas or declare a variable agree in all of them.

The second state belongs to the same story with another seed.
-/

namespace StoryPlayer

/-- Both actions fail with the same fault, or succeed with related values in related states. -/
inductive Agree (S : Player → Player → Prop) {α β : Type} (R : α → β → Prop) :
    Except Failure (α × Player) → Except Failure (β × Player) → Prop
  | ok {x : α} {y : β} {p q : Player} : R x y → S p q → Agree S R (.ok (x, p)) (.ok (y, q))
  | error {p q : Player} (fault : Fault) : Agree S R (.error ⟨fault, p⟩) (.error ⟨fault, q⟩)

/-- The actions lead from related states to results that agree. -/
def Act.Agrees (S : Player → Player → Prop) {α β : Type} (R : α → β → Prop) (act : Act α)
    (act' : Act β) : Prop :=
  ∀ p q, S p q → Agree S R (act p) (act' q)

variable {S : Player → Player → Prop} {p q : Player}

/-! ## Putting actions together -/

section Parts

variable {α β γ δ : Type} {R : α → β → Prop} {T : γ → δ → Prop}

/-- The second action only has to agree in the states that the first one really reaches. -/
theorem Agree.bind {act : Act α} {act' : Act β} {f : α → Act γ} {f' : β → Act δ}
    (h : Agree S R (act p) (act' q))
    (hf : ∀ x y r s, act p = .ok (x, r) → act' q = .ok (y, s) → R x y → S r s →
      Agree S T (f x r) (f' y s)) : Agree S T ((act >>= f) p) ((act' >>= f') q) := by
  change Agree S T (act p >>= fun s => f s.1 s.2) (act' q >>= fun s => f' s.1 s.2)
  generalize hp : act p = result at h
  generalize hq : act' q = result' at h
  cases h with
  | ok hR hrs => exact hf _ _ _ _ hp hq hR hrs
  | error fault => exact Agree.error fault

/-- What follows after a look at the states. -/
theorem Agree.afterGet {f : Player → Act α} {f' : Player → Act β}
    (h : Agree S R (f p p) (f' q q)) :
    Agree S R ((get >>= f : Act α) p) ((get >>= f' : Act β) q) :=
  h

/-- What follows a change of the frames agrees if it does from the states with the new frames. -/
theorem Agree.afterSetFrames {fs gs : List Frame} {f : Unit → Act α} {f' : Unit → Act β}
    (h : Agree S R (f () { p with frames := fs }) (f' () { q with frames := gs })) :
    Agree S R ((Act.setFrames fs >>= f) p) ((Act.setFrames gs >>= f') q) :=
  h

/-- What follows a computation that does not touch the state. -/
theorem Agree.afterLift {e : Except Fault γ} {f : γ → Act α} {f' : γ → Act β}
    (h : ∀ x, e = .ok x → Agree S R (f x p) (f' x q)) :
    Agree S R ((liftM e >>= f : Act α) p) ((liftM e >>= f' : Act β) q) := by
  cases e with
  | error fault => exact Agree.error fault
  | ok x => exact h x rfl

namespace Act.Agrees

theorem bind {act : Act α} {act' : Act β} {f : α → Act γ} {f' : β → Act δ}
    (h : Agrees S R act act') (hf : ∀ x y, R x y → Agrees S T (f x) (f' y)) :
    Agrees S T (act >>= f) (act' >>= f') := by
  intro p q hpq
  exact (h p q hpq).bind fun x y r s _ _ hxy hrs => hf x y hxy r s hrs

theorem pure {x : α} {y : β} (h : R x y) : Agrees S R (Pure.pure x : Act α) (Pure.pure y) :=
  fun _ _ hpq => Agree.ok h hpq

theorem get : Agrees S S (MonadState.get : Act Player) MonadState.get :=
  fun _ _ hpq => Agree.ok hpq hpq

theorem set (h : S p q) :
    Agrees S (fun _ _ => True) (MonadStateOf.set p : Act PUnit) (MonadStateOf.set q) :=
  fun _ _ _ => Agree.ok trivial h

theorem update {f f' : Player → Player} (h : ∀ p q, S p q → S (f p) (f' q)) :
    Agrees S Eq (modify f : Act Unit) (modify f') :=
  fun p q hpq => Agree.ok rfl (h p q hpq)

theorem fail (fault : Fault) : Agrees S R (Act.fail fault : Act α) (Act.fail fault) :=
  fun _ _ _ => Agree.error fault

/-- Results of computations that are the same under a view. -/
theorem liftM_view {ε : Type} {view : α → ε} {view' : β → ε} {e : Except Fault α}
    {e' : Except Fault β} (h : e.map view = e'.map view') :
    Agrees S (fun x y => view x = view' y) (MonadLiftT.monadLift e : Act α)
      (MonadLiftT.monadLift e') := by
  intro p q hpq
  cases e with
  | error fault =>
      cases e' with
      | error fault' =>
          obtain rfl : fault = fault' := Except.error.inj h
          exact Agree.error fault
      | ok y => cases h
  | ok x =>
      cases e' with
      | error fault' => cases h
      | ok y => exact Agree.ok (Except.ok.inj h) hpq

theorem liftM {e e' : Except Fault α} (h : e = e') :
    Agrees S Eq (MonadLiftT.monadLift e : Act α) (MonadLiftT.monadLift e') := by
  subst h
  intro p q hpq
  cases e with
  | error fault => exact Agree.error fault
  | ok x => exact Agree.ok rfl hpq

/-- A computation whose faults are turned into others. -/
theorem rewording {act act' : Act α} {change : Fault → Fault}
    (h : Agrees S Eq act act') :
    Agrees S Eq (Act.rewording change act) (Act.rewording change act') := by
  intro p q hpq
  have hresult := h p q hpq
  unfold Act.rewording
  generalize act p = result at hresult
  generalize act' q = result' at hresult
  cases hresult with
  | ok hxy hrs => exact Agree.ok hxy hrs
  | error fault => exact Agree.error (change fault)

end Act.Agrees
end Parts

/-! ## Relations in which formulas see the same -/

/-- Formulas see the same in related states, and what they change leaves the states related. -/
structure Similarity (view : Frame → Frame) (S : Player → Player → Prop) : Prop where
  shows : Frame.View view
  frames : ∀ {p q}, S p q → p.frames.map view = q.frames.map view
  once : ∀ {p q}, S p q → p.once = q.once
  generator : ∀ {p q}, S p q → p.generator = q.generator
  evaluated : ∀ {p q fs gs generator}, S p q → fs.map view = gs.map view →
    S { p with frames := fs, generator } { q with frames := gs, generator }

namespace Similarity

open Act

variable {view : Frame → Frame} {story : Story} {seed : UInt32}

/-! ## Frames -/

/-- Formulas see the same in similar states. -/
theorem bindings (hS : Similarity view S) (h : S p q) :
    Frames.bindings story p.frames = Frames.bindings story q.frames := by
  rw [← hS.shows.bindings story p.frames, hS.frames h, hS.shows.bindings]

/-- Frames that look alike may be put into similar states. -/
theorem withFrames {fs gs : List Frame} (hS : Similarity view S) (h : S p q)
    (hframes : fs.map view = gs.map view) : S { p with frames := fs } { q with frames := gs } := by
  have hset : S { p with frames := fs, generator := p.generator }
      { q with frames := gs, generator := p.generator } := hS.evaluated h hframes
  simpa only [hS.generator h] using hset

/-- The innermost frames. -/
theorem cons {f : Frame} {below : List Frame} (hS : Similarity view S) (h : S p q)
    (hp : p.frames = f :: below) :
    ∃ g under, q.frames = g :: under ∧ view f = view g ∧ below.map view = under.map view := by
  have hframes := hS.frames h
  rw [hp] at hframes
  cases hq : q.frames with
  | nil => simp [hq] at hframes
  | cons g under =>
      rw [hq] at hframes
      rcases List.cons.inj hframes with ⟨hhead, htail⟩
      exact ⟨g, under, rfl, hhead, htail⟩

theorem nil (hS : Similarity view S) (h : S p q) (hp : p.frames = []) : q.frames = [] := by
  have hframes := hS.frames h
  rw [hp] at hframes
  exact List.map_eq_nil_iff.1 hframes.symm

/-- Similar states stay similar when frames that look alike are put in. -/
theorem setFrames {fs gs : List Frame} (hS : Similarity view S)
    (h : fs.map view = gs.map view) : Agrees S Eq (Act.setFrames fs) (Act.setFrames gs) :=
  Agrees.update fun _ _ hpq => hS.withFrames hpq h

theorem top (hS : Similarity view S) : Agrees S (fun f g => view f = view g) Act.top Act.top := by
  refine Agrees.get.bind fun p q hpq => ?_
  cases hp : p.frames with
  | nil =>
      rw [hS.nil hpq hp]
      exact Agrees.fail _
  | cons f below =>
      rcases hS.cons hpq hp with ⟨g, under, hq, hhead, -⟩
      rw [hq]
      exact Agrees.pure hhead

/-! ## Formulas -/

/-- What a formula has changed is taken over alike. -/
theorem accept {α : Type} (hS : Similarity view S) (outcome : Formula.Outcome α) :
    Agrees S Eq (Act.accept outcome) (Act.accept outcome) := by
  refine Agrees.get.bind fun p q hpq => ?_
  -- Both commits are that of the same view of the frames.
  have hcommit : (Frames.commit p.frames outcome.updates).map (List.map view) =
      (Frames.commit q.frames outcome.updates).map (List.map view) := by
    have hp := hS.shows.commit p.frames outcome.updates
    have hq := hS.shows.commit q.frames outcome.updates
    rw [hS.frames hpq] at hp
    exact hp.symm.trans hq
  refine (Agrees.liftM_view hcommit).bind fun fs gs hframes => ?_
  exact (Agrees.set (hS.evaluated hpq hframes)).bind fun _ _ _ => Agrees.pure rfl

/-- An expression has the same value in similar states, or fails with the same fault. -/
theorem evaluate (hS : Similarity view S) (source : String) :
    Agrees S Eq (Act.evaluate story source) (Act.evaluate (story.reseed seed) source) := by
  -- A formula sees the variables and the generator, which are the same.
  refine Agrees.get.bind fun p q hpq => ?_
  refine (Agrees.liftM ?_).bind fun outcome _ h => h ▸ hS.accept outcome
  rw [hS.bindings hpq, hS.generator hpq]
  rfl

theorem execute (hS : Similarity view S) (source : String) :
    Agrees S Eq (Act.execute story source) (Act.execute (story.reseed seed) source) := by
  refine Agrees.get.bind fun p q hpq => ?_
  refine (Agrees.liftM ?_).bind fun outcome _ h => h ▸ hS.accept outcome
  rw [hS.bindings hpq, hS.generator hpq]
  rfl

theorem condition (hS : Similarity view S) (source : String) :
    Agrees S Eq (Act.condition story source) (Act.condition (story.reseed seed) source) := by
  refine (hS.evaluate source).bind fun value _ h => ?_
  subst h
  cases value with
  | bool holds => exact Agrees.pure rfl
  | _ => exact Agrees.fail _

/-! ## Texts and options -/

/-- The holes of a text are filled alike, although each formula may change what the next one sees.
-/
theorem renderHoles (hS : Similarity view S) (holes : List (String × String)) :
    Agrees S Eq (Act.renderHoles story holes) (Act.renderHoles (story.reseed seed) holes) := by
  induction holes with
  | nil => exact Agrees.pure rfl
  | cons hole rest ih =>
      rcases hole with ⟨source, text⟩
      refine (hS.evaluate source).bind fun value _ hvalue => ?_
      refine ih.bind fun others _ hothers => Agrees.pure ?_
      rw [hvalue, hothers]

theorem render (hS : Similarity view S) (text : String) :
    Agrees S Eq (Act.render story text) (Act.render (story.reseed seed) text) := by
  refine (hS.renderHoles _).bind fun others _ hothers => Agrees.pure ?_
  rw [hothers]

theorem renderOptional (hS : Similarity view S) (text : Option String) :
    Agrees S Eq (Act.renderOptional story text) (Act.renderOptional (story.reseed seed) text) := by
  cases text with
  | none => exact Agrees.pure rfl
  | some text =>
      refine (hS.render text).bind fun shown _ hshown => Agrees.pure ?_
      rw [hshown]

theorem available (hS : Similarity view S) (script : String) (option : ChoiceOption) :
    Agrees S Eq (Act.available story script option)
      (Act.available (story.reseed seed) script option) := by
  refine Agrees.get.bind fun p q hpq => ?_
  rw [hS.once hpq]
  split
  · exact Agrees.pure rfl
  · split
    · exact hS.condition _
    · exact Agrees.pure rfl

/-- The same options are found to be available. -/
theorem filterAvailable (hS : Similarity view S) (script : String) (options : List ChoiceOption) :
    Agrees S Eq (Act.filterAvailable story script options)
      (Act.filterAvailable (story.reseed seed) script options) := by
  induction options with
  | nil => exact Agrees.pure rfl
  | cons option rest ih =>
      refine (hS.available script option).bind fun here _ hhere => ?_
      refine ih.bind fun others _ hothers => Agrees.pure ?_
      rw [hhere, hothers]

/-- The same options are offered, also when there is only one to fall back on. -/
theorem offered (hS : Similarity view S) (script : String) (options : List ChoiceOption) :
    Agrees S Eq (Act.offered story script options)
      (Act.offered (story.reseed seed) script options) := by
  refine (hS.filterAvailable script _).bind fun ordinary _ h => ?_
  subst h
  split
  · split
    · exact hS.filterAvailable script _
    · exact Agrees.pure rfl
  · exact Agrees.pure rfl

/-- Offered options are shown alike. -/
theorem renderOptions (hS : Similarity view S) (index : Nat) (options : List ChoiceOption) :
    Agrees S Eq (Act.renderOptions story index options)
      (Act.renderOptions (story.reseed seed) index options) := by
  induction options generalizing index with
  | nil => exact Agrees.pure rfl
  | cons option rest ih =>
      refine (hS.render option.text).bind fun text _ htext => ?_
      refine (ih (index + 1)).bind fun others _ hothers => Agrees.pure ?_
      rw [htext, hothers]

/-! ## Declarations -/

theorem declareAs (hS : Similarity view S) (d : Declaration) (value : Value) :
    Agrees S Eq (Act.declareAs d value) (Act.declareAs d value) := by
  unfold Act.declareAs
  split
  · refine Agrees.get.bind fun p q hpq => ?_
    cases hp : p.frames with
    | nil =>
        rw [hS.nil hpq hp]
        exact Agrees.fail _
    | cons f below =>
        rcases hS.cons hpq hp with ⟨g, under, hq, hhead, htail⟩
        rw [hq]
        refine hS.setFrames ?_
        have hscope : f.scope = g.scope := by rw [← hS.shows.scope f, hhead, hS.shows.scope]
        have htypes : f.types = g.types := by rw [← hS.shows.types f, hhead, hS.shows.types]
        rw [List.map_cons, List.map_cons, htail]
        refine congrArg (· :: _) ?_
        refine (hS.shows.declared f _ _).trans (Eq.trans ?_ (hS.shows.declared g _ _).symm)
        rw [hhead, hscope, htypes]
  · exact Agrees.fail _

theorem firstValue (hS : Similarity view S) (d : Declaration) :
    Agrees S Eq (Act.firstValue story d) (Act.firstValue (story.reseed seed) d) := by
  unfold Act.firstValue
  cases d.initial with
  | none => exact Agrees.pure rfl
  | some source => exact Agrees.rewording (hS.evaluate source)

/-- A declaration gives the variable the same first value. -/
theorem declare (hS : Similarity view S) (d : Declaration) :
    Agrees S Eq (Act.declare story d) (Act.declare (story.reseed seed) d) := by
  refine hS.top.bind fun f g hfg => ?_
  have hscope : f.scope = g.scope := by rw [← hS.shows.scope f, hfg, hS.shows.scope]
  rw [hscope]
  split
  · exact Agrees.fail _
  · refine (hS.firstValue d).bind fun value _ h => ?_
    subst h
    exact hS.declareAs d value

end Similarity
end StoryPlayer
