import StoryPlayer.Proofs.Move
import StoryPlayer.Proofs.Rollback

/-!
# Runs

- `Step` lists what a single step can lead to, `Answer` what answering a choice can lead to,
- `Runs` are steps without anything to show in between, and `steps_ending` takes a call of
  `Player.next` apart into such steps and a last one,
- `Request` and `Player.play` are what a program that plays a story does with it,
- `next_counted` carries what a step keeps over to a whole call, and `play_lasting` to whole runs in
  which the counter of frames does not run out.
-/

namespace StoryPlayer

/-! ## Single steps -/

def Progress.ofOutput : Option Output → Progress
  | none => .running
  | some output => .shown output

/-- A single step takes the state `p` to another state. -/
inductive Step (story : Story) (p : Player) : Progress → Player → Prop
  | concluded : p.frames = [] → Step story p (.shown .ended) p.stop
  | groupMissing {f : Frame} {below : List Frame} {fault : Fault} :
      p.frames = f :: below → story.group f.group = .error fault → Step story p (.failed fault) p
  /-- The nodes of the innermost group are used up. -/
  | finished {f : Frame} {below : List Frame} {found : String × Group} {q : Player} :
      p.frames = f :: below → story.group f.group = .ok found → found.2.nodes[f.node]? = none →
      p.finishFrame story f.id = (.ok (), q) → Step story p .running q
  | finishFailed {f : Frame} {below : List Frame} {found : String × Group} {fault : Fault}
      {q : Player} :
      p.frames = f :: below → story.group f.group = .ok found → found.2.nodes[f.node]? = none →
      p.finishFrame story f.id = (.error fault, q) → Step story p (.failed fault) q
  | moved {f : Frame} {below : List Frame} {found : String × Group} {node : Node}
      {out : Option Output} {q : Player} :
      p.frames = f :: below → story.group f.group = .ok found →
      found.2.nodes[f.node]? = some node → Move story found.1 p node out q →
      Step story p (Progress.ofOutput out) q
  /-- What the node has changed is put back. -/
  | nodeFailed {f : Frame} {below : List Frame} {found : String × Group} {node : Node}
      {failure : Failure} :
      p.frames = f :: below → story.group f.group = .ok found →
      found.2.nodes[f.node]? = some node →
      Act.runNode story found.1 f.group f.node node p = .error failure →
      Step story p (.failed failure.fault) { p with pending := none, ended := false }

variable {story : Story} {p q r : Player}

/-- There are no other steps. -/
theorem step_of_dispatch {progress : Progress} (h : p.dispatch story = (progress, q)) :
    Step story p progress q := by
  -- The cases are those of the function: no frame, no group, no node left, and a node.
  unfold Player.dispatch at h
  cases hframes : p.frames with
  | nil =>
      simp only [hframes] at h
      cases h
      exact Step.concluded hframes
  | cons f below =>
      simp only [hframes] at h
      cases hgroup : story.group f.group with
      | error fault =>
          simp only [hgroup] at h
          cases h
          exact Step.groupMissing hframes hgroup
      | ok found =>
          simp only [hgroup] at h
          cases hnode : found.2.nodes[f.node]? with
          | none =>
              simp only [hnode] at h
              cases hfinish : p.finishFrame story f.id with
              | mk result s =>
                  rw [hfinish] at h
                  cases result with
                  | ok _ =>
                      cases h
                      exact Step.finished hframes hgroup hnode hfinish
                  | error fault =>
                      cases h
                      exact Step.finishFailed hframes hgroup hnode hfinish
          | some node =>
              simp only [hnode] at h
              cases hrun : Act.runNode story found.1 f.group f.node node p with
              | error failure =>
                  rw [hrun] at h
                  simp only [rollback_of_runNode hrun] at h
                  cases h
                  exact Step.nodeFailed hframes hgroup hnode hrun
              | ok result =>
                  rcases result with ⟨out, s⟩
                  rw [hrun] at h
                  have hmove := move_of_runNode hrun
                  cases out with
                  | none =>
                      cases h
                      exact Step.moved hframes hgroup hnode hmove
                  | some output =>
                      cases h
                      exact Step.moved hframes hgroup hnode hmove

/-- A step that goes on without anything to show runs the node to its end at which the innermost
frame stands. -/
theorem move_of_running {f : Frame} {below : List Frame} {found : String × Group} {node : Node}
    (h : p.dispatch story = (.running, q)) (hframes : p.frames = f :: below)
    (hgroup : story.group f.group = .ok found) (hnode : found.2.nodes[f.node]? = some node) :
    Move story found.1 p node none q := by
  have hstep := step_of_dispatch h
  generalize hrunning : Progress.running = progress at hstep
  cases hstep with
  | finished hframes' hgroup' hnone _ =>
      rcases List.cons.inj (hframes.symm.trans hframes') with ⟨rfl, rfl⟩
      rcases Except.ok.inj (hgroup.symm.trans hgroup') with rfl
      simp [hnode] at hnone
  | @moved _ _ _ _ out _ hframes' hgroup' hnode' hmove =>
      rcases List.cons.inj (hframes.symm.trans hframes') with ⟨rfl, rfl⟩
      rcases Except.ok.inj (hgroup.symm.trans hgroup') with rfl
      rcases Option.some.inj (hnode.symm.trans hnode') with rfl
      cases out with
      | none => exact hmove
      | some output => cases hrunning
  | _ => cases hrunning

/-- If there is no node, it ends the innermost frame. -/
theorem finishFrame_of_running {f : Frame} {below : List Frame} {found : String × Group}
    (h : p.dispatch story = (.running, q)) (hframes : p.frames = f :: below)
    (hgroup : story.group f.group = .ok found) (hnode : found.2.nodes[f.node]? = none) :
    p.finishFrame story f.id = (.ok (), q) := by
  have hstep := step_of_dispatch h
  generalize hrunning : Progress.running = progress at hstep
  cases hstep with
  | finished hframes' _ _ hfinish =>
      rcases List.cons.inj (hframes.symm.trans hframes') with ⟨rfl, rfl⟩
      exact hfinish
  | moved hframes' hgroup' hnode' _ =>
      rcases List.cons.inj (hframes.symm.trans hframes') with ⟨rfl, rfl⟩
      rcases Except.ok.inj (hgroup.symm.trans hgroup') with rfl
      simp [hnode] at hnode'
  | _ => cases hrunning

/-! ## Answers -/

/-- Answering a choice takes the state `p` to another state. -/
inductive Answer (story : Story) (p : Player) (index : Nat) : Player → Prop
  | mk {pending : Pending} {item : ChoiceItem} {f : Frame} {below : List Frame}
      {found entered : String × Group} {option : ChoiceOption} :
      p.pending = some pending → pending.items[index]? = some item →
      Frames.upTo? pending.frame p.frames = some (f, below) → story.group f.group = .ok found →
      Act.optionFor? found.2.nodes[f.node]? pending.node item.id = some option →
      story.group option.group = .ok entered →
      Answer story p index
        { Player.push
            { p with
              frames := f.advanced :: below
              once := if option.once then p.once.mark found.1 (Once.optionKey option.id)
                else p.once }
            (Player.innerFrame option.group .resumeAfterChild) with pending := none }

/-- There are no other answers. -/
theorem answer_of_choose {index : Nat} {y : Unit} (h : Act.choose story index p = .ok (y, q)) :
    Answer story p index q := by
  -- Whatever is missing ends the action with a fault, so a single way through it is left.
  rcases Act.bind_eq_ok.1 h with ⟨_, _, hget, hrest⟩
  rcases Act.get_eq_ok.1 hget with ⟨rfl, rfl⟩
  cases hpending : p.pending with
  | none =>
      simp only [hpending] at hrest
      exact (Act.fail_eq_ok.1 hrest).elim
  | some pending =>
      simp only [hpending] at hrest
      cases hitem : pending.items[index]? with
      | none =>
          simp only [hitem] at hrest
          exact (Act.fail_eq_ok.1 hrest).elim
      | some item =>
          simp only [hitem] at hrest
          cases hframe : Frames.upTo? pending.frame p.frames with
          | none =>
              simp only [hframe] at hrest
              exact (Act.fail_eq_ok.1 hrest).elim
          | some place =>
              rcases place with ⟨f, below⟩
              simp only [hframe] at hrest
              rcases Act.bind_eq_ok.1 hrest with ⟨⟨script, group⟩, _, hlift, hrest⟩
              rcases Act.liftM_eq_ok.1 hlift with ⟨hgroup, rfl⟩
              cases hoption : Act.optionFor? group.nodes[f.node]? pending.node item.id with
              | none =>
                  simp only [hoption] at hrest
                  exact (Act.fail_eq_ok.1 hrest).elim
              | some option =>
                  simp only [hoption] at hrest
                  rcases Act.bind_eq_ok.1 hrest with ⟨entered, _, hlift, hrest⟩
                  rcases Act.liftM_eq_ok.1 hlift with ⟨hentered, rfl⟩
                  rcases Act.bind_eq_ok.1 hrest with ⟨_, _, hset, hrest⟩
                  rcases Act.set_eq_ok.1 hset with rfl
                  rcases Act.bind_eq_ok.1 hrest with ⟨_, _, henter, hmodify⟩
                  rcases Act.enter_onward_eq_ok henter with ⟨_, g, under, -, hg, rfl⟩
                  cases hg
                  rcases Act.modify_eq_ok.1 hmodify with rfl
                  exact Answer.mk hpending hitem hframe hgroup hoption hentered

/-! ## Steps in a row -/

/-- A number of steps, none of which shows anything, takes one state to another. -/
inductive Runs (story : Story) : Nat → Player → Player → Prop
  | refl (p : Player) : Runs story 0 p p
  | step {n : Nat} {p q r : Player} :
      p.dispatch story = (.running, q) → Runs story n q r → Runs story (n + 1) p r

/-- How a call that takes at most `fuel` steps ends. -/
inductive Ending (story : Story) (fuel : Nat) (p : Player) : Except Fault Output → Player → Prop
  | guarded {q : Player} :
      Runs story fuel p q → Ending story fuel p (.error (.guardExceeded Player.guardLimit)) q
  | shown {n : Nat} {q r : Player} {output : Output} :
      n < fuel → Runs story n p q → q.dispatch story = (.shown output, r) →
      Ending story fuel p (.ok output) r
  | failed {n : Nat} {q r : Player} {fault : Fault} :
      n < fuel → Runs story n p q → q.dispatch story = (.failed fault, r) →
      Ending story fuel p (.error fault) r

/-- Every play of steps comes to one of the three ends. -/
theorem steps_ending {fuel : Nat} {result : Except Fault Output}
    (h : p.steps story fuel = (result, q)) : Ending story fuel p result q := by
  induction fuel generalizing p with
  | zero =>
      cases h
      exact Ending.guarded (Runs.refl _)
  | succ fuel ih =>
      simp only [Player.steps] at h
      cases hdispatch : p.dispatch story with
      | mk progress r =>
          rw [hdispatch] at h
          cases progress with
          | shown output =>
              cases h
              exact Ending.shown (Nat.succ_pos fuel) (Runs.refl p) hdispatch
          | failed fault =>
              cases h
              exact Ending.failed (Nat.succ_pos fuel) (Runs.refl p) hdispatch
          | running =>
              -- The rest of the run ends in some way; the step is put in front of it.
              cases ih h with
              | guarded hruns => exact Ending.guarded (Runs.step hdispatch hruns)
              | shown hn hruns hlast =>
                  exact Ending.shown (Nat.succ_lt_succ hn) (Runs.step hdispatch hruns) hlast
              | failed hn hruns hlast =>
                  exact Ending.failed (Nat.succ_lt_succ hn) (Runs.step hdispatch hruns) hlast

/-- Steps that show nothing are taken out of the fuel. -/
theorem steps_of_runs {n : Nat} (h : Runs story n p r) (fuel : Nat) :
    p.steps story (n + fuel) = r.steps story fuel := by
  induction h with
  | refl p => rw [Nat.zero_add]
  | @step n p q r hrun _ ih =>
      calc p.steps story (n + 1 + fuel) = p.steps story (n + fuel + 1) := by
            rw [Nat.add_right_comm]
        _ = q.steps story (n + fuel) := by simp only [Player.steps, hrun]
        _ = r.steps story fuel := ih

/-! ## What steps do to the other parts of the state -/

/-- Going back to a caller changes the frames, or ends the story. -/
theorem settle_state (story : Story) (scope : Dict Value) (c : Option Continuation) (p : Player) :
    (Player.settle story scope c p).2 = p.finished ∨
      ∃ frames, (Player.settle story scope c p).2 = { p with frames } := by
  unfold Player.settle
  split
  · exact Or.inl rfl
  · split
    · split
      · exact Or.inr ⟨_, rfl⟩
      · exact Or.inr ⟨_, rfl⟩
    · exact Or.inl rfl

/-- The end of a group changes the frames only, or ends the story. -/
theorem finishFrame_state (story : Story) (id : UInt64) (p : Player) :
    (p.finishFrame story id).2 = p.finished ∨
      ∃ frames, (p.finishFrame story id).2 = { p with frames } := by
  unfold Player.finishFrame
  split
  · exact Or.inr ⟨_, rfl⟩
  · split
    · next found others _ _ =>
      rcases settle_state story found.scope found.continuation { p with frames := others } with
        h | ⟨frames, h⟩
      · exact Or.inl h
      · exact Or.inr ⟨frames, h⟩
    · exact Or.inr ⟨_, rfl⟩

/-- What every step and every answer keeps of the rest of the state: at most one frame is numbered,
a choice opens only if it is shown, and the story ends with an empty stack. -/
structure Kept (p : Player) (out : Option Output) (q : Player) : Prop where
  counter : q.counter = p.counter ∨ q.counter = p.counter + 1
  pending : q.pending = p.pending ∨ q.pending = none ∨
    ∃ c, q.pending = some c ∧ out = some c.output
  ended : q.ended = p.ended ∨ q.ended = false ∨
    (q.frames = [] ∧ (q.pending = p.pending ∨ q.pending = none))

namespace Kept

variable {out : Option Output}

/-- Frames and what has been used may change. -/
theorem onward (h : p.Evaluated q) (frames : List Frame) (once : Once) :
    Kept p out { q with frames, once } :=
  ⟨Or.inl h.counter, Or.inl h.pending, Or.inl h.ended⟩

/-- A frame may be pushed. -/
theorem pushed (h : p.Evaluated q) (frames : List Frame) (once : Once) (frame : Frame) :
    Kept p out (Player.push { q with frames, once } frame) := by
  refine ⟨Or.inr ?_, Or.inl h.pending, Or.inl h.ended⟩
  simp only [Player.push, h.counter]

/-- The frames may change, or the story may end. -/
theorem settled {below : List Frame}
    (h : q = Player.finished { p with frames := below } ∨ ∃ frames, q = { p with frames }) :
    Kept p out q := by
  rcases h with rfl | ⟨frames, rfl⟩
  · exact ⟨Or.inl rfl, Or.inr (Or.inl rfl), Or.inr (Or.inr ⟨rfl, Or.inr rfl⟩)⟩
  · exact ⟨Or.inl rfl, Or.inl rfl, Or.inl rfl⟩

/-- A choice that was not open before has been shown. -/
theorem shown {c : Pending} (h : Kept p out q) (hpending : p.pending = none)
    (hc : q.pending = some c) : out = some c.output := by
  rcases h.pending with hsame | hnone | ⟨d, hd, hout⟩
  · simp [hsame, hpending] at hc
  · simp [hnone] at hc
  · obtain rfl : d = c := Option.some.inj (hd.symm.trans hc)
    exact hout

end Kept

/-- What a node leaves as it was, and what it may change. -/
theorem Move.kept {script : String} {node : Node} {out : Option Output}
    (h : Move story script p node out q) : Kept p out q := by
  cases h with
  | textUsed _ _ => exact Kept.onward (.refl p) _ _
  | text _ hrender _ => exact Kept.onward ((Act.evaluates_render story _).ok hrender) _ _
  | code hexecute _ => exact Kept.onward ((Act.evaluates_execute story _).ok hexecute) _ _
  | declare hvalue _ _ _ => exact Kept.onward hvalue.evaluated _ _
  | branchOver hcondition _ =>
      exact Kept.onward ((Act.evaluates_condition story _).ok hcondition) _ _
  | branchInto hcondition _ _ _ =>
      exact Kept.pushed ((Act.evaluates_condition story _).ok hcondition) _ _ _
  | loopOver hcondition _ =>
      exact Kept.onward ((Act.evaluates_condition story _).ok hcondition) _ _
  | loopInto hcondition _ =>
      exact Kept.pushed ((Act.evaluates_condition story _).ok hcondition) _ _ _
  | choiceOver hoffered _ =>
      exact Kept.onward ((Act.evaluates_offered story _ _).ok hoffered) _ _
  | choice hoffered _ hitems hprompt _ =>
      have heval := evaluated_of_choice hoffered hitems hprompt
      exact ⟨Or.inl heval.counter, Or.inr (Or.inr ⟨_, rfl, rfl⟩), Or.inl heval.ended⟩
  | call _ _ _ _ hpassed _ _ =>
      exact Kept.pushed ((Act.evaluates_passArguments story _ _ _ _ _).ok hpassed) _ _ _
  | tailCall _ _ _ _ hpassed _ _ _ _ =>
      exact Kept.pushed ((Act.evaluates_passArguments story _ _ _ _ _).ok hpassed) _ _ _
  | @leaveScript _ _ root below _ _ hsettle =>
      have hstate := settle_state story root.scope root.continuation { p with frames := below }
      rw [hsettle] at hstate
      exact Kept.settled hstate
  | transferAtBottom _ _ hvalues _ _ _ =>
      exact Kept.pushed ((Act.evaluates_transferArguments story _ _ _ _ _).ok hvalues) _ _ _
  | transfer _ _ hvalues _ _ _ _ =>
      exact Kept.pushed ((Act.evaluates_transferArguments story _ _ _ _ _).ok hvalues) _ _ _
  | leave _ _ _ => exact Kept.onward (.refl p) _ _
  | again _ _ _ => exact Kept.onward (.refl p) _ _

def Progress.output? : Progress → Option Output
  | .shown output => some output
  | _ => none

/-- What a step leaves as it was, and what it may change. -/
theorem Step.kept {progress : Progress} (h : Step story p progress q) :
    Kept p progress.output? q := by
  cases h with
  | concluded hframes => exact ⟨Or.inl rfl, Or.inl rfl, Or.inr (Or.inr ⟨hframes, Or.inl rfl⟩)⟩
  | groupMissing _ _ => exact Kept.onward (.refl p) _ _
  | @finished f _ _ _ _ _ _ hfinish =>
      have hstate := finishFrame_state story f.id p
      rw [hfinish] at hstate
      exact Kept.settled hstate
  | @finishFailed f _ _ _ _ _ _ _ hfinish =>
      have hstate := finishFrame_state story f.id p
      rw [hfinish] at hstate
      exact Kept.settled hstate
  | @moved _ _ _ _ out _ _ _ _ hmove => cases out <;> exact hmove.kept
  | nodeFailed _ _ _ _ => exact ⟨Or.inl rfl, Or.inr (Or.inl rfl), Or.inr (Or.inl rfl)⟩

/-- A step that shows nothing opens no choice. -/
theorem pending_of_running (h : p.dispatch story = (.running, q)) (hp : p.pending = none) :
    q.pending = none := by
  rcases (step_of_dispatch h).kept.pending with hsame | hnone | ⟨c, -, hout⟩
  · rw [hsame, hp]
  · exact hnone
  · cases hout

/-! ## Calls -/

/-- What single steps keep, a call of `Player.next` keeps.  The property may speak about the number
of steps. -/
theorem next_counted {I : Nat → Player → Prop} (hstart : I 0 p)
    (hstep : ∀ n q progress r, I n q → q.pending = none → q.dispatch story = (progress, r) →
      I (n + 1) r) :
    ∃ n ≤ Player.guardLimit, I n (p.next story).2 := by
  -- Along steps that show nothing no choice opens, so the next step may be taken.
  have hruns : ∀ {n : Nat} {q r : Player}, Runs story n q r → ∀ {k : Nat}, I k q →
      q.pending = none → I (k + n) r ∧ r.pending = none := by
    intro n q r h
    induction h with
    | refl q => exact fun hk hq => ⟨hk, hq⟩
    | @step n q s r hrun _ ih =>
        intro k hk hq
        have hnext := ih (hstep k q _ s hk hq hrun) (pending_of_running hrun hq)
        rwa [show k + (n + 1) = k + 1 + n by omega]
  unfold Player.next
  cases hpending : p.pending with
  | some pending => exact ⟨0, Nat.zero_le _, hstart⟩
  | none =>
      by_cases hended : p.ended = true
      · simp only [hended, if_true]
        exact ⟨0, Nat.zero_le _, hstart⟩
      · simp only [hended]
        cases hsteps : p.steps story Player.guardLimit with
        | mk result q =>
            cases steps_ending hsteps with
            | guarded h =>
                exact ⟨_, Nat.le_refl _, by simpa using (hruns h hstart hpending).1⟩
            | @shown n r _ _ hn h hlast =>
                rcases hruns h hstart hpending with ⟨hr, hnone⟩
                exact ⟨n + 1, hn, by simpa using hstep _ r _ q hr hnone hlast⟩
            | @failed n r _ _ hn h hlast =>
                rcases hruns h hstart hpending with ⟨hr, hnone⟩
                exact ⟨n + 1, hn, by simpa using hstep _ r _ q hr hnone hlast⟩

/-- How a script starts. -/
theorem begin_eq_ok {script : String} {arguments : Dict Value}
    (h : Player.begin story script arguments = .ok p) :
    ∃ callee root locals, Dict.get? story.scripts script = some callee ∧
      story.group callee.root = .ok root ∧ story.locals script arguments = .ok locals ∧
      p = (Player.fresh story.seed).push (Player.rootFrame callee.root locals none) := by
  unfold Player.begin at h
  split at h
  · cases h
  · next callee hcallee =>
    split at h
    · cases h
    · next root hroot =>
      split at h
      · cases h
      · next locals hlocals =>
        cases h
        exact ⟨callee, root, locals, hcallee, hroot, hlocals, rfl⟩

inductive Request
  /-- Play on to the next thing to show. -/
  | next
  /-- Answer a choice by the place of an item. -/
  | choose (index : Nat)
  deriving DecidableEq, Repr

inductive Reply
  | output (result : Except Fault Output)
  | done (result : Except Fault Unit)

namespace Player

def respond (story : Story) (p : Player) : Request → Reply × Player
  | .next => (.output (p.next story).1, (p.next story).2)
  | .choose index => (.done (p.choose story index).1, (p.choose story index).2)

/-- Carries out requests one after the other, whether or not they succeed. -/
def play (story : Story) (p : Player) : List Request → Player
  | [] => p
  | request :: rest => ((p.respond story request).2).play story rest

end Player

/-- An answer that succeeds is that of the action. -/
theorem choose_eq_ok {index : Nat} (h : p.choose story index = (.ok (), q)) :
    Act.choose story index p = .ok ((), q) := by
  unfold Player.choose Player.perform at h
  split at h
  · next hact =>
    cases h
    exact hact
  · cases h

/-- A choice is answered, or nothing happens. -/
theorem choose_cases (index : Nat) :
    (p.choose story index).2 = p ∨ Answer story p index (p.choose story index).2 := by
  unfold Player.choose Player.perform
  cases h : Act.choose story index p with
  | error failure => exact Or.inl (choose_eq_error h)
  | ok result => exact Or.inr (answer_of_choose h)

/-- What single steps and answers keep, requests keep, whether or not they succeed. -/
theorem play_keeps {I : Player → Prop} (requests : List Request) (hp : I p)
    (hstep : ∀ p progress q, I p → p.pending = none → Step story p progress q → I q)
    (hanswer : ∀ p index q, I p → Answer story p index q → I q) : I (p.play story requests) := by
  induction requests generalizing p with
  | nil => exact hp
  | cons request rest ih =>
      apply ih
      cases request with
      | next =>
          rcases @next_counted story p (fun _ q => I q) hp (fun _ q progress r hq hnone hrun =>
            hstep q progress r hq hnone (step_of_dispatch hrun)) with ⟨_, -, hkept⟩
          exact hkept
      | choose index =>
          rcases @choose_cases story p index with hsame | hchosen
          · simpa only [Player.respond, hsame] using hp
          · exact hanswer p index _ hp hchosen

/-! ## Numbers of frames -/

/-- The numbers of frames do not run out while the requests are carried out: none of them takes the
counter back to small numbers. -/
def CounterLasts (story : Story) : Player → List Request → Prop
  | _, [] => True
  | p, request :: rest =>
    p.counter ≤ (p.respond story request).2.counter ∧
      CounterLasts story (p.respond story request).2 rest

/-- A counter that has been moved on by less than the whole range did not run out on the way. -/
theorem counter_lasted {first last : UInt64} {n k : Nat} (hk : k ≤ n) (hn : n < 2 ^ 64)
    (hlast : last = first + UInt64.ofNat k) (h : first ≤ last) : first.toNat + k < 2 ^ 64 := by
  rw [hlast, UInt64.le_iff_toNat_le, UInt64.toNat_add, UInt64.toNat_ofNat'] at h
  have hbound := first.toNat_lt
  omega

theorem counter_add_one {first : UInt64} {k : Nat} :
    first + UInt64.ofNat k + 1 = first + UInt64.ofNat (k + 1) := by
  rw [UInt64.add_assoc]
  congr 1
  simp [UInt64.ofNat_add]

/-- Without overflow the counter counts. -/
theorem counter_toNat {first : UInt64} {k : Nat} (h : first.toNat + k < 2 ^ 64) :
    (first + UInt64.ofNat k).toNat = first.toNat + k := by
  rw [UInt64.toNat_add, UInt64.toNat_ofNat']
  omega

/-- An answered choice waits no longer. -/
theorem Answer.closed {index : Nat} (h : Answer story p index q) : q.pending = none := by
  cases h
  rfl

/-- There is nothing to answer unless a choice waits. -/
theorem Answer.waited {index : Nat} (h : Answer story p index q) : ∃ c, p.pending = some c := by
  cases h with
  | mk hc _ _ _ _ _ => exact ⟨_, hc⟩

/-- An answer pushes one frame, that of the group it enters. -/
theorem Answer.counter {index : Nat} (h : Answer story p index q) : q.counter = p.counter + 1 := by
  cases h
  rfl

/-- What single steps keep while the counter does not run out, a call keeps; the counter is moved on
once for each step at most. -/
theorem next_lasting {I : Player → Prop} (hp : I p)
    (hstep : ∀ p progress q, I p → p.pending = none → p.dispatch story = (progress, q) →
      p.counter ≤ q.counter → I q) :
    ∃ k ≤ Player.guardLimit, (p.next story).2.counter = p.counter + UInt64.ofNat k ∧
      (p.counter.toNat + k < 2 ^ 64 → I (p.next story).2) := by
  have hcounted := @next_counted story p
    -- After `n` steps the counter has moved on `k` times; the property holds if it has not run out.
    (fun n q => ∃ k ≤ n, q.counter = p.counter + UInt64.ofNat k ∧
      (p.counter.toNat + k < 2 ^ 64 → I q))
    ⟨0, Nat.le_refl 0, by simp, fun _ => hp⟩ ?_
  · rcases hcounted with ⟨n, hn, k, hk, hcounter, hI⟩
    exact ⟨k, Nat.le_trans hk hn, hcounter, hI⟩
  · rintro n q progress r ⟨k, hk, hcounter, hI⟩ hpending hdispatch
    rcases (step_of_dispatch hdispatch).kept.counter with hsame | hnext
    · refine ⟨k, Nat.le_succ_of_le hk, hsame.trans hcounter, fun hlasts => ?_⟩
      refine hstep q progress r (hI hlasts) hpending hdispatch ?_
      rw [hsame]
      exact UInt64.le_refl _
    · refine ⟨k + 1, Nat.succ_le_succ hk, ?_, fun hlasts => ?_⟩
      · rw [hnext, hcounter, counter_add_one]
      · refine hstep q progress r (hI (by omega)) hpending hdispatch ?_
        rw [hnext, hcounter, counter_add_one, UInt64.le_iff_toNat_le, counter_toNat hlasts,
          counter_toNat (by omega)]
        omega

/-- What single steps and answers keep while the counter does not run out, requests keep. -/
theorem play_lasting {I : Player → Prop} (requests : List Request) (hp : I p)
    (hlasts : CounterLasts story p requests)
    (hstep : ∀ p progress q, I p → p.pending = none → p.dispatch story = (progress, q) →
      p.counter ≤ q.counter → I q)
    (hanswer : ∀ p index q, I p → Answer story p index q → p.counter ≤ q.counter → I q) :
    I (p.play story requests) := by
  induction requests generalizing p with
  | nil => exact hp
  | cons request rest ih =>
      rcases hlasts with ⟨hfirst, hrest⟩
      refine ih ?_ hrest
      cases request with
      | next =>
          -- A call takes too few steps to pass all numbers and come back above the first one.
          rcases next_lasting hp hstep with ⟨k, hk, hcounter, hI⟩
          exact hI (counter_lasted hk (by decide) hcounter hfirst)
      | choose index =>
          rcases @choose_cases story p index with hsame | hchosen
          · simpa only [Player.respond, hsame] using hp
          · exact hanswer p index _ hp hchosen hfirst

/-- The counter has moved on by `n` numbers at most. -/
def Player.Within (n : Nat) (p q : Player) : Prop :=
  ∃ k ≤ n, q.counter = p.counter + UInt64.ofNat k

namespace Player.Within

variable {n m : Nat}

theorem refl (p : Player) : Within n p p :=
  ⟨0, Nat.zero_le n, by simp⟩

theorem trans (h : Within n p q) (h' : Within m q r) : Within (n + m) p r := by
  rcases h with ⟨k, hk, hq⟩
  rcases h' with ⟨l, hl, hr⟩
  refine ⟨k + l, Nat.add_le_add hk hl, ?_⟩
  rw [hr, hq, UInt64.add_assoc, UInt64.ofNat_add]

theorem mono (h : Within n p q) (hnm : n ≤ m) : Within m p q := by
  rcases h with ⟨k, hk, hq⟩
  exact ⟨k, Nat.le_trans hk hnm, hq⟩

/-- On the way to a greater number the counter has not run out. -/
theorem between (h : Within n p q) (h' : Within m q r) (hsmall : n + m < 2 ^ 64)
    (hpr : p.counter ≤ r.counter) : p.counter ≤ q.counter ∧ q.counter ≤ r.counter := by
  rcases h with ⟨k, hk, hq⟩
  rcases h' with ⟨l, hl, hr⟩
  have hlast : r.counter = p.counter + UInt64.ofNat (k + l) := by
    rw [hr, hq, UInt64.add_assoc, UInt64.ofNat_add]
  have hlasted := counter_lasted (Nat.add_le_add hk hl) hsmall hlast hpr
  rw [UInt64.le_iff_toNat_le, UInt64.le_iff_toNat_le, hlast, hq, counter_toNat hlasted,
    counter_toNat (by omega)]
  omega

end Player.Within

/-- A step pushes at most one frame. -/
theorem within_of_dispatch {progress : Progress} (h : p.dispatch story = (progress, q)) :
    p.Within 1 q := by
  rcases (step_of_dispatch h).kept.counter with hsame | hnext
  · exact ⟨0, by decide, by simp [hsame]⟩
  · exact ⟨1, by decide, hnext⟩

/-- Steps push at most one frame each. -/
theorem Runs.within {n : Nat} (h : Runs story n p q) : p.Within n q := by
  induction h with
  | refl p => exact Player.Within.refl p
  | @step n p q r hrun _ ih =>
      rw [Nat.add_comm]
      exact (within_of_dispatch hrun).trans ih

/-- A call pushes at most as many frames as it may take steps. -/
theorem next_within (story : Story) (p : Player) : p.Within Player.guardLimit (p.next story).2 := by
  obtain ⟨k, hk, hcounter, -⟩ := @next_lasting story p (fun _ => True) trivial
    fun _ _ _ _ _ _ _ => trivial
  exact ⟨k, hk, hcounter⟩

/-- An answer pushes at most one frame. -/
theorem choose_within (story : Story) (p : Player) (index : Nat) :
    p.Within 1 (p.choose story index).2 := by
  rcases @choose_cases story p index with hsame | hchosen
  · rw [hsame]
    exact Player.Within.refl p
  · exact ⟨1, by decide, hchosen.counter⟩

/-- A counter that stays far from its end does not run out. -/
theorem Player.Within.lasts {n : Nat} (h : p.Within n q) (hn : p.counter.toNat + n < 2 ^ 64) :
    p.counter ≤ q.counter ∧ q.counter.toNat ≤ p.counter.toNat + n := by
  rcases h with ⟨k, hk, hq⟩
  have hnat := @counter_toNat p.counter k (by omega)
  rw [UInt64.le_iff_toNat_le, hq, hnat]
  omega

/-- The numbers last for every run of less than `2 ^ 64 / guardLimit` requests. -/
theorem counterLasts_of_length (requests : List Request)
    (h : p.counter.toNat + requests.length * Player.guardLimit < 2 ^ 64) :
    CounterLasts story p requests := by
  induction requests generalizing p with
  | nil => trivial
  | cons request rest ih =>
      have hmoved : p.Within Player.guardLimit (p.respond story request).2 := by
        cases request with
        | next => exact next_within story p
        | choose index => exact (choose_within story p index).mono (by decide)
      rw [List.length_cons, Nat.add_mul] at h
      rcases hmoved.lasts (by omega) with ⟨hle, hbound⟩
      exact ⟨hle, ih (by omega)⟩

end StoryPlayer
