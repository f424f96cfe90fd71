import StoryPlayer.Proofs.Effect

/-!
# What a node that fails leaves behind

A node that fails has changed the state up to the fault.  `Player.rollback` puts the frames, the
generator and what has been used back, but not the number of the next frame.

- `Act.Numberless` holds of actions that number no frame, whether they succeed or fail,
- `Act.NumbersLast` holds of actions that have numbered no frame if they fail,
- `rollback_of_runNode` concludes that going back restores all that a node has changed.

An answer to a choice is not put back; `choose_eq_error` says that one that fails changes nothing.
-/

namespace StoryPlayer
namespace Act

variable {α β : Type}

/-- Whether it succeeds or fails, the action numbers no frame. -/
structure Numberless (act : Act α) : Prop where
  ok : ∀ {p x q}, act p = .ok (x, q) → q.counter = p.counter
  error : ∀ {p failure}, act p = .error failure → failure.reached.counter = p.counter

/-- An action that fails has numbered no frame; only at its end it does. -/
def NumbersLast (act : Act α) : Prop :=
  ∀ p failure, act p = .error failure → failure.reached.counter = p.counter

/-- Computing formulas pushes no frame. -/
theorem Evaluates.numberless {act : Act α} (h : Evaluates act) : Numberless act where
  ok hok := (h.ok hok).counter
  error herror := (h.error herror).counter

namespace Numberless

theorem bind {act : Act α} {f : α → Act β} (h : Numberless act) (hf : ∀ x, Numberless (f x)) :
    Numberless (act >>= f) where
  ok := by
    intro p y q hok
    rcases bind_eq_ok.1 hok with ⟨x, r, hx, hy⟩
    calc q.counter = r.counter := (hf x).ok hy
      _ = p.counter := h.ok hx
  error := by
    intro p failure herror
    rcases bind_eq_error.1 herror with hfirst | ⟨x, r, hx, hlater⟩
    · exact h.error hfirst
    · calc failure.reached.counter = r.counter := (hf x).error hlater
        _ = p.counter := h.ok hx

theorem setFrames (frames : List Frame) : Numberless (Act.setFrames frames) where
  ok := by
    intro p x q h
    rcases modify_eq_ok.1 h with rfl
    rfl
  error h := by cases h

/-- A change that leaves the number of the next frame alone. -/
theorem update {change : Player → Player} (h : ∀ p, (change p).counter = p.counter) :
    Numberless (modify change : Act Unit) where
  ok := by
    intro p x q hok
    rcases modify_eq_ok.1 hok with rfl
    exact h p
  error herror := by cases herror

/-- An action that pushes no frame uses no number, also when it fails. -/
theorem numbersLast {act : Act α} (h : Numberless act) : NumbersLast act :=
  fun _ _ herror => h.error herror

end Numberless

namespace NumbersLast

/-- What comes before the last action must not number a frame. -/
theorem after {act : Act α} {f : α → Act β} (h : Numberless act) (hf : ∀ x, NumbersLast (f x)) :
    NumbersLast (act >>= f) := by
  intro p failure herror
  rcases bind_eq_error.1 herror with hfirst | ⟨x, r, hx, hlater⟩
  · exact h.error hfirst
  · calc failure.reached.counter = r.counter := hf x r failure hlater
      _ = p.counter := h.ok hx

/-- What only gives a result cannot fail any more. -/
theorem thenPure {act : Act α} {y : β} (h : NumbersLast act) :
    NumbersLast (act >>= fun _ => Pure.pure y) := by
  intro p failure herror
  rcases bind_eq_error.1 herror with hfirst | ⟨_, _, -, hpure⟩
  · exact h p failure hfirst
  · cases hpure

theorem modify (change : Player → Player) : NumbersLast (MonadState.modifyGet fun p =>
    ((), change p) : Act Unit) := by
  intro p failure herror
  cases herror

end NumbersLast

/-! ## The parts of nodes -/

section Parts

variable (story : Story) (script : String)

theorem numberless_get : Numberless (get : Act Player) := Evaluates.get.numberless

theorem numberless_fail (fault : Fault) : Numberless (fail fault : Act α) :=
  (Evaluates.fail fault).numberless

theorem numberless_pure (x : α) : Numberless (pure x : Act α) := (Evaluates.pure x).numberless

theorem numberless_liftM (e : Except Fault α) : Numberless (liftM e : Act α) :=
  (Evaluates.liftM e).numberless

theorem numberless_top : Numberless top := by
  refine numberless_get.bind fun p => ?_
  split
  · exact numberless_fail _
  · exact numberless_pure _

theorem numberless_advance : Numberless advance := by
  refine numberless_get.bind fun p => ?_
  split
  · exact numberless_fail _
  · exact Numberless.setFrames _

/-- Other words for a fault use no number. -/
theorem numberless_rewording {act : Act α} {change : Fault → Fault} (h : Numberless act) :
    Numberless (rewording change act) where
  ok hok := h.ok (rewording_eq_ok.1 hok)
  error := by
    intro p failure herror
    rcases rewording_eq_error.1 herror with ⟨first, hfirst, rfl⟩
    have hcounter := h.error hfirst
    exact hcounter

theorem numberless_firstValue (d : Declaration) : Numberless (firstValue story d) := by
  unfold firstValue
  cases d.initial with
  | none => exact numberless_pure _
  | some source => exact numberless_rewording (evaluates_evaluate story source).numberless

theorem numberless_declareAs (d : Declaration) (value : Value) :
    Numberless (declareAs d value) := by
  unfold declareAs
  split
  · refine numberless_get.bind fun p => ?_
    split
    · exact numberless_fail _
    · exact Numberless.setFrames _
  · exact numberless_fail _

theorem numberless_declare (d : Declaration) : Numberless (declare story d) := by
  refine numberless_top.bind fun f => ?_
  split
  · exact numberless_fail _
  · exact (numberless_firstValue story d).bind (numberless_declareAs d)

theorem numberless_showText (id value : String) (once : Bool) :
    Numberless (showText story script id value once) := by
  refine numberless_get.bind fun p => ?_
  split
  · exact numberless_advance.bind fun _ => numberless_pure _
  · refine (evaluates_render story value).numberless.bind fun text => ?_
    refine numberless_advance.bind fun _ => ?_
    split
    · refine Numberless.bind (Numberless.update ?_) fun _ => numberless_pure _
      exact fun _ => rfl
    · exact numberless_pure _

/-- Showing a choice pushes no frame; the answer will. -/
theorem numberless_offer (node : String) (prompt : Option String) (options : List ChoiceOption) :
    Numberless (offer story script node prompt options) := by
  refine (evaluates_offered story script options).numberless.bind fun shown => ?_
  split
  · exact numberless_advance.bind fun _ => numberless_pure _
  · refine (evaluates_renderOptions story 0 shown).numberless.bind fun items => ?_
    refine (evaluates_renderOptional story prompt).numberless.bind fun text => ?_
    refine numberless_top.bind fun frame => ?_
    refine Numberless.bind (Numberless.update ?_) fun _ => numberless_pure _
    exact fun _ => rfl

theorem numberless_backToLoop (keyword : String) : Numberless (backToLoop story keyword) := by
  refine numberless_get.bind fun p => ?_
  split
  · refine (numberless_liftM _).bind fun found => ?_
    dsimp only
    split
    · exact Numberless.setFrames _
    · exact numberless_fail _
  · exact numberless_fail _

/-- Entering a group checks that it is there before the frame is pushed. -/
theorem numbersLast_enter (group : String) (completion : Completion) (advanceFirst : Bool) :
    NumbersLast (enter story group completion advanceFirst) := by
  refine NumbersLast.after (numberless_liftM _) fun _ => ?_
  cases advanceFirst with
  | true => exact NumbersLast.after numberless_advance fun _ => NumbersLast.modify _
  | false => exact NumbersLast.modify _

theorem numbersLast_branch (source yes : String) (no : Option String) :
    NumbersLast (branch story source yes no) := by
  refine NumbersLast.after (evaluates_condition story source).numberless fun holds => ?_
  cases (if holds then some yes else no) with
  | some group => exact numbersLast_enter story group _ _
  | none => exact numberless_advance.numbersLast

theorem numbersLast_loop (source body : String) : NumbersLast (loop story source body) := by
  refine NumbersLast.after (evaluates_condition story source).numberless fun holds => ?_
  cases holds with
  | true => exact numbersLast_enter story body _ _
  | false => exact numberless_advance.numbersLast

/-! ## Calls -/

/-- The callee is started last, when nothing can fail any more. -/
theorem numbersLast_call (target : String) (arguments : List Argument) :
    NumbersLast (call story target arguments) := by
  refine NumbersLast.after numberless_top fun caller => ?_
  refine NumbersLast.after (numberless_liftM _) fun found => ?_
  cases Dict.get? story.scripts target with
  | none => exact (numberless_fail _).numbersLast
  | some callee =>
      refine NumbersLast.after (numberless_liftM _) fun _ => ?_
      refine NumbersLast.after (evaluates_passArguments story target _ _ _ _).numberless
        fun passed => ?_
      -- Tail call or not, the frame is pushed at the very end.
      have hrest : NumbersLast (do
          let locals ← liftM (story.locals target passed.values)
          if isTailCall caller found.2.nodes.length then
            setFrames ((← get).frames.drop 1)
            pushRoot callee.root locals caller.continuation
          else
            pushRoot callee.root locals (some ⟨caller.id, caller.node + 1, passed.refs⟩)) := by
        refine NumbersLast.after (numberless_liftM _) fun locals => ?_
        split
        · refine NumbersLast.after numberless_get fun p => ?_
          exact NumbersLast.after (Numberless.setFrames _) fun _ => NumbersLast.modify _
        · exact NumbersLast.modify _
      by_cases hrefs : (isTailCall caller found.2.nodes.length && !passed.refs.isEmpty) = true
      · simp only [hrefs, if_true]
        exact NumbersLast.after (numberless_fail _) fun _ => hrest
      · simp only [hrefs]
        exact hrest

theorem numberless_currentRoot : Numberless currentRoot := by
  refine numberless_get.bind fun p => ?_
  split
  · exact numberless_pure _
  · exact numberless_fail _

/-- Going back to a caller fails only because of what was passed by reference. -/
theorem numberless_settle (scope : Dict Value) (c : Option Continuation) :
    NumbersLast (settle story scope c) := by
  intro p failure herror
  unfold settle Player.settle at herror
  cases c with
  | none => cases herror
  | some c =>
      by_cases hhas : Frames.has p.frames c.frame = true
      · simp only [hhas, if_true] at herror
        cases hback : Frames.writeBack story scope c.refs p.frames with
        | mk result frames =>
            rw [hback] at herror
            cases result with
            | ok _ => cases herror
            | error fault =>
                cases herror
                rfl
      · simp only [hhas] at herror
        cases herror

theorem numberless_handOver (scope : Dict Value) (c : Continuation) :
    Numberless (handOver story scope c) := by
  refine numberless_get.bind fun p => ?_
  dsimp only
  split
  · split
    · exact Numberless.setFrames _
    · exact (Numberless.setFrames _).bind fun _ => numberless_fail _
  · exact numberless_pure _

theorem numbersLast_leaveScript : NumbersLast (leaveScript story) := by
  refine NumbersLast.after numberless_currentRoot fun found => ?_
  exact NumbersLast.after (Numberless.setFrames _) fun _ => numberless_settle story _ _

/-- So is the script that takes over. -/
theorem numbersLast_transfer (target : String) (arguments : List Argument) :
    NumbersLast (transfer story target arguments) := by
  refine NumbersLast.after numberless_currentRoot fun _ => ?_
  cases Dict.get? story.scripts target with
  | none => exact (numberless_fail _).numbersLast
  | some callee =>
      refine NumbersLast.after (numberless_liftM _) fun _ => ?_
      refine NumbersLast.after (evaluates_transferArguments story target _ _ _ _).numberless
        fun values => ?_
      refine NumbersLast.after (numberless_liftM _) fun locals => ?_
      refine NumbersLast.after numberless_currentRoot fun found => ?_
      refine NumbersLast.after (Numberless.setFrames _) fun _ => ?_
      cases found.1.continuation with
      | none => exact NumbersLast.modify _
      | some c =>
          exact NumbersLast.after (numberless_handOver story _ _) fun _ => NumbersLast.modify _

end Parts

/-! ## Nodes -/

/-- A node that fails has numbered no frame. -/
theorem numbersLast_runNode (story : Story) (script group : String) (index : Nat) (node : Node) :
    NumbersLast (runNode story script group index node) := by
  cases node with
  | text id value once => exact (numberless_showText story script id value once).numbersLast
  | code id source =>
      refine NumbersLast.after (evaluates_execute story source).numberless fun _ => ?_
      exact numberless_advance.numbersLast.thenPure
  | declare id d =>
      refine NumbersLast.after (numberless_declare story d) fun _ => ?_
      exact numberless_advance.numbersLast.thenPure
  | branch id source yes no => exact (numbersLast_branch story source yes no).thenPure
  | loop id source body => exact (numbersLast_loop story source body).thenPure
  | choice id prompt options =>
      exact (numberless_offer story script id prompt options).numbersLast
  | call id target arguments => exact (numbersLast_call story target arguments).thenPure
  | finish id target arguments =>
      cases target with
      | none => exact (numbersLast_leaveScript story).thenPure
      | some target => exact (numbersLast_transfer story target arguments).thenPure
  | leave id =>
      refine NumbersLast.after (numberless_backToLoop story _) fun _ => ?_
      exact numberless_advance.numbersLast.thenPure
  | again id => exact (numberless_backToLoop story _).numbersLast.thenPure
  | unknown => exact (numberless_fail _).numbersLast

end Act

/-- Going back to the state before a node that has failed restores the whole state.  What waits and
whether the story is over is not looked up; nodes are run only while nothing waits. -/
theorem rollback_of_runNode {story : Story} {script group : String} {index : Nat} {node : Node}
    {p : Player} {failure : Failure}
    (h : Act.runNode story script group index node p = .error failure) :
    failure.reached.rollback p.checkpoint = { p with pending := none, ended := false } := by
  have hcounter := Act.numbersLast_runNode story script group index node p failure h
  simp only [Player.rollback, Player.checkpoint, hcounter]

/-! ## What cannot fail -/

namespace Act

section Certain

variable {story : Story} {p : Player} {f : Frame} {below : List Frame} {failure : Failure}

/-- With a frame on the stack the innermost one is found. -/
theorem top_ne_error (hp : p.frames = f :: below) :
    top p ≠ .error failure := by
  intro h
  rcases bind_eq_error.1 h with hget | ⟨_, _, hget, hfail⟩
  · cases hget
  · rcases get_eq_ok.1 hget with ⟨rfl, rfl⟩
    rw [hp] at hfail
    cases hfail

theorem advance_ne_error (hp : p.frames = f :: below) :
    advance p ≠ .error failure := by
  intro h
  rcases bind_eq_error.1 h with hget | ⟨_, _, hget, hset⟩
  · cases hget
  · rcases get_eq_ok.1 hget with ⟨rfl, rfl⟩
    rw [hp] at hset
    cases hset

/-- An action after which the frame moves on fails by itself. -/
theorem thenAdvance_eq_error {α β : Type} {act : Act α} {y : β}
    (hframes : ∀ x q, act p = .ok (x, q) → ∃ f below, q.frames = f :: below)
    (h : (do let _ ← act; advance; return y : Act β) p = .error failure) :
    act p = .error failure := by
  rcases bind_eq_error.1 h with hact | ⟨x, q, hact, hrest⟩
  · exact hact
  · rcases hframes x q hact with ⟨f, below, hq⟩
    rcases bind_eq_error.1 hrest with hadvance | ⟨_, _, -, hpure⟩
    · exact absurd hadvance (advance_ne_error hq)
    · cases hpure

/-- A group is entered unless it is missing. -/
theorem enter_eq_error {group : String} {completion : Completion} {onward : Bool}
    (hp : p.frames = f :: below)
    (h : enter story group completion onward p = .error failure) :
    story.group group = .error failure.fault := by
  rcases bind_eq_error.1 h with hlift | ⟨_, _, hlift, hrest⟩
  · rcases liftM_eq_error.1 hlift with ⟨fault, hmissing, rfl⟩
    exact hmissing
  · rcases liftM_eq_ok.1 hlift with ⟨-, rfl⟩
    cases onward with
    | false => cases hrest
    | true =>
        rcases bind_eq_error.1 hrest with hadvance | ⟨_, _, -, hpush⟩
        · exact absurd hadvance (advance_ne_error hp)
        · cases hpush

/-- A group that is there is entered, if there is a frame to enter it from. -/
theorem enter_ne_error {group : String} {completion : Completion} {found : String × Group}
    (hgroup : story.group group = .ok found) (hp : p.frames = f :: below) :
    enter story group completion true p ≠ .error failure := by
  intro h
  have hmissing := enter_eq_error hp h
  simp [hgroup] at hmissing

end Certain
end Act

/-! ## Answers -/

/-- An answer that fails changes nothing: everything is checked before anything changes. -/
theorem choose_eq_error {story : Story} {index : Nat} {p : Player} {failure : Failure}
    (h : Act.choose story index p = .error failure) : failure.reached = p := by
  have hfailed : ∀ {α : Type} {fault : Fault},
      (Act.fail fault : Act α) p = .error failure → failure.reached = p := by
    intro α fault hfail
    rw [Act.fail_eq_error.1 hfail]
  rcases Act.bind_eq_error.1 h with hget | ⟨_, _, hget, hrest⟩
  · cases hget
  · rcases Act.get_eq_ok.1 hget with ⟨rfl, rfl⟩
    cases hpending : p.pending with
    | none =>
        simp only [hpending] at hrest
        exact hfailed hrest
    | some pending =>
        simp only [hpending] at hrest
        cases hitem : pending.items[index]? with
        | none =>
            simp only [hitem] at hrest
            exact hfailed hrest
        | some item =>
            simp only [hitem] at hrest
            cases hframe : Frames.upTo? pending.frame p.frames with
            | none =>
                simp only [hframe] at hrest
                exact hfailed hrest
            | some place =>
                rcases place with ⟨f, below⟩
                simp only [hframe] at hrest
                rcases Act.bind_eq_error.1 hrest with hlift | ⟨⟨script, group⟩, _, hlift, hrest⟩
                · rcases Act.liftM_eq_error.1 hlift with ⟨fault, -, rfl⟩
                  rfl
                rcases Act.liftM_eq_ok.1 hlift with ⟨-, rfl⟩
                cases hoption : Act.optionFor? group.nodes[f.node]? pending.node item.id with
                | none =>
                    simp only [hoption] at hrest
                    exact hfailed hrest
                | some option =>
                    simp only [hoption] at hrest
                    rcases Act.bind_eq_error.1 hrest with hlift | ⟨entered, _, hlift, hrest⟩
                    · rcases Act.liftM_eq_error.1 hlift with ⟨fault, -, rfl⟩
                      rfl
                    rcases Act.liftM_eq_ok.1 hlift with ⟨hentered, rfl⟩
                    -- From here on nothing can fail: the group is there, and a frame is left.
                    rcases Act.bind_eq_error.1 hrest with hset | ⟨_, _, hset, hrest⟩
                    · cases hset
                    rcases Act.set_eq_ok.1 hset with rfl
                    rcases Act.bind_eq_error.1 hrest with henter | ⟨_, _, -, hmodify⟩
                    · exact (Act.enter_ne_error hentered rfl henter).elim
                    · cases hmodify

end StoryPlayer
