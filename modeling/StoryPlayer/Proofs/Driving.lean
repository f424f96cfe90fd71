import StoryPlayer.Proofs.Retry
import StoryPlayer.Proofs.Stopping

/-!
# Playing as telling

A program plays a story by asking for the next thing to show, again and again, also after too many
steps without one, and answers each choice with the next of its picks.

- `Player.drive` lists what it gets to see in a number of calls,
- `Jumpless` says that no script is called or left on the way,
- `told_of_turn` shows what one call is in a telling, `drive_told` and `told_driven` what all of
  them are,
- `driven_as_told` concludes that a story shows the same and fails in the same way, whether it is
  played or told.
-/

namespace StoryPlayer

/-! ## Turns -/

/-- What a call, and the answer to a choice that it shows, leads to. -/
structure Turn where
  events : List Event
  state : Player
  /-- The picks that are left; nothing if the program stops. -/
  picks : Option (List Nat)

/-- What a program does when a call has come to an end: it answers a choice with the next pick, and
it stops at a fault other than that of too many steps. -/
def Turn.after (story : Story) (picks : List Nat) : Except Fault Output × Player → Turn
  | (.ok (.text text), p) => ⟨[.shown (.text text)], p, some picks⟩
  | (.ok .ended, p) => ⟨[.shown .ended], p, none⟩
  | (.ok (.choices items prompt), p) =>
    match picks with
    | [] => ⟨[.shown (.choices items prompt)], p, none⟩
    | index :: rest =>
      match p.choose story index with
      | (.ok _, q) => ⟨[.shown (.choices items prompt)], q, some rest⟩
      | (.error fault, q) => ⟨.shown (.choices items prompt) :: fault.told, q, none⟩
  | (.error fault, p) =>
    ⟨fault.told, p, if fault = .guardExceeded Player.guardLimit then some picks else none⟩

namespace Player

/-- Asks for the next thing to show, and answers a choice with the next pick. -/
def turn (story : Story) (picks : List Nat) (p : Player) : Turn :=
  Turn.after story picks (p.next story)

def drive (story : Story) : Nat → List Nat → Player → List Event
  | 0, _, _ => []
  | calls + 1, picks, p =>
    (p.turn story picks).events ++
      match (p.turn story picks).picks with
      | some rest => drive story calls rest (p.turn story picks).state
      | none => []

/-- The program stops within a number of calls. -/
def stops (story : Story) : Nat → List Nat → Player → Bool
  | 0, _, _ => false
  | calls + 1, picks, p =>
    match (p.turn story picks).picks with
    | some rest => stops story calls rest (p.turn story picks).state
    | none => true

end Player

/-- The numbers of frames do not run out in a number of calls. -/
def DriveLasts (story : Story) : Nat → List Nat → Player → Prop
  | 0, _, _ => True
  | calls + 1, picks, p =>
    p.counter ≤ (p.turn story picks).state.counter ∧
      match (p.turn story picks).picks with
      | some rest => DriveLasts story calls rest (p.turn story picks).state
      | none => True

/-- Playing with picks leads from the first state to the second one, and leaves picks. -/
inductive Leads (story : Story) : List Nat → Player → List Nat → Player → Prop
  | refl (picks : List Nat) (p : Player) : Leads story picks p picks p
  | running {picks rest : List Nat} {p q r : Player} :
      p.dispatch story = (.running, q) → Leads story picks q rest r → Leads story picks p rest r
  | text {picks rest : List Nat} {p q r : Player} {text : String} :
      p.dispatch story = (.shown (.text text), q) → Leads story picks q rest r →
      Leads story picks p rest r
  | answer {picks rest : List Nat} {p q r s : Player} {items : List ChoiceItem}
      {prompt : Option String} {index : Nat} :
      p.dispatch story = (.shown (.choices items prompt), q) →
      q.choose story index = (.ok (), r) → Leads story picks r rest s →
      Leads story (index :: picks) p rest s

/-- No script is called and none is left while the story is played with picks. -/
def Jumpless (story : Story) (picks : List Nat) (p : Player) : Prop :=
  ∀ rest q, Leads story picks p rest q → ∀ node, q.StandsAt story node → node.isJump = false

variable {story : Story} {p q r : Player} {picks : List Nat} {log : List Event}
  {levels : List Level}

/-- The story can be asked for the next thing to show, and stays in its script. -/
structure Ready (story : Story) (picks : List Nat) (p : Player) : Prop where
  wellFormed : p.WellFormed story
  pending : p.pending = none
  jumpless : Jumpless story picks p

/-- The node to be run neither calls a script nor leaves one. -/
theorem Ready.jump (h : Ready story picks p) (node : Node) (hnode : p.StandsAt story node) :
    node.isJump = false :=
  h.jumpless picks p (Leads.refl picks p) node hnode

/-- A story that can be asked is not waiting. -/
theorem Ready.open (h : Ready story picks p) : p.Open :=
  ⟨h.pending, fun hended => (h.wellFormed.ended hended).1⟩

/-- A step that shows nothing leaves the story ready, with the same picks. -/
theorem Ready.running (h : Ready story picks p) (hrun : p.dispatch story = (.running, q))
    (hcounter : p.counter ≤ q.counter) : Ready story picks q where
  wellFormed := (step_of_dispatch hrun).wellFormed h.wellFormed h.pending hcounter
  pending := pending_of_running hrun h.pending
  jumpless rest r hleads := h.jumpless rest r (Leads.running hrun hleads)

/-- So does one that shows a text. -/
theorem Ready.text {text : String} (h : Ready story picks p)
    (hshown : p.dispatch story = (.shown (.text text), q)) (hcounter : p.counter ≤ q.counter) :
    Ready story picks q where
  wellFormed := (step_of_dispatch hshown).wellFormed h.wellFormed h.pending hcounter
  pending := by
    rcases (step_of_dispatch hshown).kept.pending with hsame | hnone | ⟨c, -, hout⟩
    · rw [hsame, h.pending]
    · exact hnone
    · cases hout
  jumpless rest r hleads := h.jumpless rest r (Leads.text hshown hleads)

/-- An answered choice uses up one pick. -/
theorem Ready.answer {items : List ChoiceItem} {prompt : Option String} {index : Nat}
    (h : Ready story (index :: picks) p)
    (hshown : p.dispatch story = (.shown (.choices items prompt), q))
    (hchoose : q.choose story index = (.ok (), r)) (hfirst : p.counter ≤ q.counter)
    (hsecond : q.counter ≤ r.counter) : Ready story picks r := by
  have hq := (step_of_dispatch hshown).wellFormed h.wellFormed h.pending hfirst
  have hanswer := answer_of_choose (choose_eq_ok hchoose)
  refine ⟨hanswer.wellFormed hq hsecond, ?_, ?_⟩
  · cases hanswer
    rfl
  · intro rest s hleads
    exact h.jumpless rest s (Leads.answer hshown hchoose hleads)

/-- A story in which no script is called or left anywhere. -/
theorem jumpless_of_nodes (h : ∀ node ∈ story.nodes, node.isJump = false) (picks : List Nat)
    (p : Player) : Jumpless story picks p := by
  rintro rest q - node ⟨f, below, -, hnode⟩
  exact h node (mem_nodes_of_nodeAt? hnode)

/-! ## Calls -/

/-- A call takes too few steps to pass all numbers. -/
theorem lt_of_le_guardLimit {n : Nat} (hn : n ≤ Player.guardLimit + 1) : n < 2 ^ 64 :=
  Nat.lt_of_le_of_lt hn (by decide)

/-- Steps that show nothing are told, unless the fuel has run out. -/
theorem told_of_runs {n : Nat} (h : Runs story n p r) (hready : Ready story picks p)
    (hdistinct : story.DistinctOptions) (htracked : Frames.Tracked p.frames levels)
    (hn : n ≤ Player.guardLimit) (hcounter : p.counter ≤ r.counter) :
    (p.rest story levels picks log = log ∧ ∃ level ∈ levels, level.2 < n) ∨
      (Ready story picks r ∧ ∃ lower, Frames.Tracked r.frames lower ∧ Spent n levels lower ∧
        p.rest story levels picks log = r.rest story lower picks log) := by
  induction h generalizing levels with
  | refl p => exact Or.inr ⟨hready, levels, htracked, Spent.refl levels, rfl⟩
  | @step n p q r hrun hruns ih =>
      -- The counter cannot pass its last number and come back in so few steps.
      have hsmall : 1 + n < 2 ^ 64 := lt_of_le_guardLimit (by omega)
      rcases (within_of_dispatch hrun).between hruns.within hsmall hcounter with ⟨hpq, hqr⟩
      have hq := hready.running hrun hpq
      rcases retold_of_dispatch picks log hrun hready.wellFormed hq.wellFormed hdistinct
        hready.jump htracked with ⟨htold, level, hmem, hzero⟩ | ⟨lower, hlower, hspent, htold⟩
      · exact Or.inl ⟨htold, level, hmem, by omega⟩
      · rcases ih hq hlower (by omega) hqr with ⟨hlog, hstarved⟩ | ⟨hr, last, hlast, hmore, hrest⟩
        · exact Or.inl ⟨htold.trans hlog, hspent.starved hstarved⟩
        · refine Or.inr ⟨hr, last, hlast, ?_, htold.trans hrest⟩
          rw [Nat.add_comm]
          exact hspent.trans hmore

/-- The step after steps that show nothing is told, unless the fuel has run out. -/
theorem retold_of_runs {n : Nat} {progress : Progress} (h : Runs story n p r)
    (hlast : r.dispatch story = (progress, q)) (hready : Ready story picks p)
    (hdistinct : story.DistinctOptions) (htracked : Frames.Tracked p.frames levels)
    (hn : n < Player.guardLimit) (hcounter : p.counter ≤ q.counter) :
    (p.rest story levels picks log = log ∧ ∃ level ∈ levels, level.2 < Player.guardLimit) ∨
      (Ready story picks r ∧ r.counter ≤ q.counter ∧ ∃ lower, Frames.Tracked r.frames lower ∧
        Spent n levels lower ∧
        Retold story lower (p.rest story levels picks log) picks log progress q) := by
  have hsmall : n + 1 < 2 ^ 64 := lt_of_le_guardLimit (by omega)
  rcases h.within.between (within_of_dispatch hlast) hsmall hcounter with ⟨hpr, hrq⟩
  rcases told_of_runs h hready hdistinct htracked (Nat.le_of_lt hn) hpr with
    ⟨hlog, level, hmem, hlt⟩ | ⟨hr, lower, hlower, hspent, hrest⟩
  · exact Or.inl ⟨hlog, level, hmem, by omega⟩
  · have hq := (step_of_dispatch hlast).wellFormed hr.wellFormed hr.pending hrq
    rw [hrest]
    rcases retold_of_dispatch picks log hlast hr.wellFormed hq hdistinct hr.jump hlower with
      ⟨hlog, hstarved⟩ | hretold
    · refine Or.inl ⟨hlog, ?_⟩
      rcases hstarved with ⟨level, hmem, hzero⟩
      rcases hspent.starved ⟨level, hmem, show level.2 < 1 by omega⟩ with ⟨first, hfirst, hlt⟩
      exact ⟨first, hfirst, by omega⟩
    · exact Or.inr ⟨hr, hrq, lower, hlower, hspent, hretold⟩

/-- What a turn from a state with levels is in a telling. -/
inductive TurnTold (story : Story) (whole : List Level) (told log : List Event)
    (picks : List Nat) (turn : Turn) : Prop
  /-- The fuel has run out, and the telling has stopped before. -/
  | starved : told = log → (∃ level ∈ whole, level.2 < Player.guardLimit) →
      TurnTold story whole told log picks turn
  /-- Both have come to an end. -/
  | ended : turn.picks = none → told = log ++ turn.events → TurnTold story whole told log picks turn
  /-- A formula has failed with the fault of too many steps, and does so whenever it is asked. -/
  | stuck : turn.events = [] → turn.picks = some picks →
      turn.state.turn story picks = ⟨[], turn.state, some picks⟩ → told = log →
      TurnTold story whole told log picks turn
  | onward {n : Nat} {rest : List Nat} {lower : List Level} :
      0 < n → n ≤ Player.guardLimit → turn.picks = some rest → Ready story rest turn.state →
      Frames.Tracked turn.state.frames lower → Spent n whole lower →
      told = turn.state.rest story lower rest (log ++ turn.events) →
      TurnTold story whole told log picks turn

/-- What follows a call pushes at most one frame, that of the picked option. -/
theorem after_within (story : Story) (picks : List Nat) (result : Except Fault Output)
    (p : Player) : p.Within 1 (Turn.after story picks (result, p)).state := by
  cases result with
  | error fault => exact Player.Within.refl p
  | ok output =>
      cases output with
      | text text => exact Player.Within.refl p
      | ended => exact Player.Within.refl p
      | choices items prompt =>
          cases picks with
          | nil => exact Player.Within.refl p
          | cons index rest =>
              have hwithin := choose_within story p index
              simp only [Turn.after]
              split
              · next heq =>
                rw [heq] at hwithin
                exact hwithin
              · next heq =>
                rw [heq] at hwithin
                exact hwithin

/-- A node that has failed is met again by the next call. -/
theorem next_of_stuck {fault : Fault} (hr : Ready story picks r)
    (htracked : Frames.Tracked r.frames levels) (h : r.dispatch story = (.failed fault, q)) :
    q = r ∧ r.next story = (.error fault, r) := by
  rcases failed_cases hr.open h with ⟨-, hframes, rfl⟩ | ⟨-, hbroken⟩
  · have hended : q.ended = false := by
      by_contra hover
      exact hframes (hr.open.ended (by simpa using hover))
    exact ⟨rfl, next_of_failed hr.pending hended (Runs.refl q) (by decide) h⟩
  · -- Only a script that was called can fail to return.
    cases hbroken with
    | @mk f root below others frames c hframes htake _ hc _ =>
        have hstack := hr.wellFormed.stacked
        rw [hframes] at hstack htake htracked
        rw [hstack.takeOut?_top] at htake
        obtain ⟨rfl, -⟩ := Prod.mk.inj (Option.some.inj htake)
        cases htracked with
        | cons hfirst _ =>
            have hown := hfirst.2
            simp [hc] at hown

/-- A call that gives up after too many steps tells nothing. -/
theorem told_guardExceeded : (Fault.guardExceeded Player.guardLimit).told = [] :=
  if_pos rfl

/-- A call that ends with something to show is told. -/
theorem told_of_shown {n : Nat} {output : Output} {lower : List Level} {told : List Event}
    (hlast : r.dispatch story = (.shown output, q)) (hr : Ready story picks r)
    (hrq : r.counter ≤ q.counter)
    (hqs : q.counter ≤ (Turn.after story picks (.ok output, q)).state.counter)
    (hn : n < Player.guardLimit) (hspent : Spent n levels lower)
    (hretold : Retold story lower told picks log (.shown output) q) :
    TurnTold story levels told log picks (Turn.after story picks (.ok output, q)) := by
  -- The turn goes on after a text and after a chosen item, and ends with anything else.
  cases output with
  | ended => exact TurnTold.ended rfl hretold
  | text text =>
      rcases hretold with ⟨last, htracked, hone, htold⟩
      exact TurnTold.onward (Nat.succ_pos n) hn rfl (hr.text hlast hrq) htracked
        (hspent.trans hone) htold
  | choices items prompt =>
      cases hretold with
      | unanswered htold => exact TurnTold.ended rfl htold
      | refused hchoose htold =>
          simp only [Turn.after, hchoose]
          refine TurnTold.ended rfl ?_
          rw [htold, List.append_assoc]
          rfl
      | accepted hchoose hcontinues =>
          rcases hcontinues with ⟨last, htracked, hone, htold⟩
          simp only [Turn.after, hchoose] at hqs ⊢
          exact TurnTold.onward (Nat.succ_pos n) hn rfl (hr.answer hlast hchoose hrq hqs) htracked
            (hspent.trans hone) htold

/-- A call that fails is told. -/
theorem told_of_failed {fault : Fault} {lower : List Level} {told : List Event}
    (hlast : r.dispatch story = (.failed fault, q)) (hr : Ready story picks r)
    (htracked : Frames.Tracked r.frames lower)
    (hretold : Retold story lower told picks log (.failed fault) q) :
    TurnTold story levels told log picks (Turn.after story picks (.error fault, q)) := by
  by_cases hguard : fault = .guardExceeded Player.guardLimit
  · subst hguard
    rcases next_of_stuck hr htracked hlast with ⟨rfl, hnext⟩
    have hagain : q.turn story picks = ⟨[], q, some picks⟩ := by
      rw [Player.turn, hnext, Turn.after, told_guardExceeded, if_pos rfl]
    refine TurnTold.stuck told_guardExceeded rfl hagain ?_
    rw [hretold, told_guardExceeded, List.append_nil]
  · exact TurnTold.ended (if_neg hguard) hretold

/-- A call is told, with the answer to a choice that it shows. -/
theorem told_of_turn (hready : Ready story picks p) (hdistinct : story.DistinctOptions)
    (htracked : Frames.Tracked p.frames levels)
    (hcounter : p.counter ≤ (p.turn story picks).state.counter) :
    TurnTold story levels (p.rest story levels picks log) log picks (p.turn story picks) := by
  by_cases hended : p.ended = true
  · -- Nothing is left, and both say that the story is over.
    rw [(hready.wellFormed.ended hended).1] at htracked
    cases htracked
    have hturn : p.turn story picks = ⟨[.shown .ended], p, none⟩ := by
      simp only [Player.turn, Player.next, hready.pending, hended, if_true]
      rfl
    rw [hturn]
    exact TurnTold.ended rfl rfl
  · cases hsteps : p.steps story Player.guardLimit with
    | mk result q =>
        have hturn : p.turn story picks = Turn.after story picks (result, q) := by
          simp only [Player.turn, Player.next, hready.pending, hended]
          rw [← hsteps]
          rfl
        rw [hturn] at hcounter ⊢
        have hwithin := after_within story picks result q
        -- The call gives up, shows something, or fails.
        cases steps_ending hsteps with
        | guarded hruns =>
            rcases told_of_runs hruns hready hdistinct htracked (Nat.le_refl _) hcounter with
              ⟨hlog, hstarved⟩ | ⟨hq, lower, hlower, hspent, hrest⟩
            · exact TurnTold.starved hlog hstarved
            · refine TurnTold.onward (by decide) (Nat.le_refl _) rfl hq hlower hspent ?_
              rw [hrest, Turn.after, told_guardExceeded, List.append_nil]
        | @shown n r _ output hn hruns hlast =>
            have hall := hruns.within.trans (within_of_dispatch hlast)
            have hsmall : n + 1 + 1 < 2 ^ 64 := lt_of_le_guardLimit (by omega)
            rcases hall.between hwithin hsmall hcounter with ⟨hpq, hqs⟩
            rcases retold_of_runs hruns hlast hready hdistinct htracked hn hpq with
              ⟨hlog, hstarved⟩ | ⟨hr, hrq, lower, hlower, hspent, hretold⟩
            · exact TurnTold.starved hlog hstarved
            · exact told_of_shown hlast hr hrq hqs hn hspent hretold
        | @failed n r _ fault hn hruns hlast =>
            rcases retold_of_runs hruns hlast hready hdistinct htracked hn hcounter with
              ⟨hlog, hstarved⟩ | ⟨hr, hrq, lower, hlower, hspent, hretold⟩
            · exact TurnTold.starved hlog hstarved
            · exact told_of_failed hlast hr hlower hretold

/-! ## Whole runs -/

/-- A story that is stuck shows nothing any more. -/
theorem drive_of_stuck (h : p.turn story picks = ⟨[], p, some picks⟩) (calls : Nat) :
    p.drive story calls picks = [] := by
  induction calls with
  | zero => rfl
  | succ calls ih => simpa only [Player.drive, h, List.nil_append] using ih

/-- With enough fuel all that is seen is told, and nothing else once the program has stopped. -/
theorem drive_told (log : List Event) (calls : Nat) (hready : Ready story picks p)
    (hdistinct : story.DistinctOptions) (htracked : Frames.Tracked p.frames levels)
    (hlasts : DriveLasts story calls picks p)
    (hfuel : ∀ level ∈ levels, calls * Player.guardLimit ≤ level.2) :
    log ++ p.drive story calls picks <+: p.rest story levels picks log ∧
      (p.stops story calls picks = true →
        log ++ p.drive story calls picks = p.rest story levels picks log) := by
  -- A call takes at most `guardLimit` units of fuel from each level.
  induction calls generalizing p picks levels log with
  | zero =>
      rw [Player.drive, List.append_nil]
      refine ⟨tellBelow_extends false levels .onward (p.world picks log), fun hstops => ?_⟩
      cases hstops
  | succ calls ih =>
      rcases hlasts with ⟨hcounter, hlater⟩
      rw [Nat.succ_mul] at hfuel
      rw [Player.drive, Player.stops]
      cases told_of_turn hready hdistinct htracked hcounter with
      | starved _ hstarved =>
          rcases hstarved with ⟨level, hmem, hlt⟩
          have hbound := hfuel level hmem
          omega
      | ended hpicks htold =>
          rw [htold, hpicks, List.append_nil]
          exact ⟨List.prefix_rfl, fun _ => rfl⟩
      | stuck hevents hpicks hagain htold =>
          have hnothing := drive_of_stuck hagain calls
          rw [htold, hevents, hpicks]
          simp only [hnothing, List.append_nil]
          exact ⟨List.prefix_rfl, fun _ => trivial⟩
      | onward _ hn hpicks hnext hlower hspent htold =>
          rw [hpicks] at hlater ⊢
          rw [htold, ← List.append_assoc]
          refine ih _ hnext hlower hlater (hspent.fuel _ fun level hmem => ?_)
          have hbound := hfuel level hmem
          omega

/-- All that is told is seen after some calls, as long as the numbers of frames last. -/
theorem told_driven (log : List Event) (bound : Nat) (hready : Ready story picks p)
    (hdistinct : story.DistinctOptions) (htracked : Frames.Tracked p.frames levels)
    (hbound : weight levels < bound) :
    ∃ calls, DriveLasts story calls picks p ∧
      (p.rest story levels picks log <+: log ++ p.drive story calls picks ∨
        ¬ DriveLasts story (calls + 1) picks p) := by
  -- Every call that goes on takes a step at least, and makes the weight of the levels smaller.
  induction bound generalizing p picks levels log with
  | zero => exact absurd hbound (Nat.not_lt_zero _)
  | succ bound ih =>
      by_cases hcounter : p.counter ≤ (p.turn story picks).state.counter
      · cases told_of_turn hready hdistinct htracked hcounter with
        | starved htold _ =>
            refine ⟨0, trivial, Or.inl ?_⟩
            rw [htold]
            exact List.prefix_append _ _
        | ended hpicks htold =>
            have hseen : p.rest story levels picks log = log ++ p.drive story 1 picks := by
              rw [Player.drive, hpicks, htold, List.append_nil]
            have hlasts : DriveLasts story 1 picks p := by
              refine ⟨hcounter, ?_⟩
              rw [hpicks]
              trivial
            exact ⟨1, hlasts, Or.inl ⟨[], (List.append_nil _).trans hseen⟩⟩
        | stuck _ _ _ htold =>
            refine ⟨0, trivial, Or.inl ?_⟩
            rw [htold]
            exact List.prefix_append _ _
        | onward hn _ hpicks hnext hlower hspent htold =>
            have hless := hspent.weight
            rcases ih _ hnext hlower (by omega) with ⟨calls, hlasts, hreached⟩
            refine ⟨calls + 1, ?_, ?_⟩
            · rw [DriveLasts, hpicks]
              exact ⟨hcounter, hlasts⟩
            · rcases hreached with hseen | hends
              · refine Or.inl ?_
                rw [Player.drive, hpicks, htold, ← List.append_assoc]
                exact hseen
              · refine Or.inr fun hmore => hends ?_
                rw [DriveLasts, hpicks] at hmore
                exact hmore.2
      · exact ⟨0, trivial, Or.inr fun hmore => hcounter hmore.1⟩

/-- The numbers last for every run of less than `2 ^ 64 / (guardLimit + 1)` calls. -/
theorem driveLasts_of_calls (calls : Nat)
    (h : p.counter.toNat + calls * (Player.guardLimit + 1) < 2 ^ 64) :
    DriveLasts story calls picks p := by
  induction calls generalizing p picks with
  | zero => trivial
  | succ calls ih =>
      have hmoved : p.Within (Player.guardLimit + 1) (p.turn story picks).state :=
        (next_within story p).trans (after_within story picks _ _)
      rw [Nat.succ_mul] at h
      rcases hmoved.lasts (by omega) with ⟨hle, hbound⟩
      refine ⟨hle, ?_⟩
      cases (p.turn story picks).picks with
      | none => trivial
      | some rest => exact ih (by omega)

/-- The telling of a script is what is left at its start. -/
theorem tell_eq_rest {script : String} {arguments : Dict Value}
    (hbegin : Player.begin story script arguments = .ok p) (fuel : Nat) :
    ∃ place, Frames.Tracked p.frames [(place, fuel)] ∧
      story.tell fuel script arguments picks = p.rest story [(place, fuel)] picks [] := by
  rcases begin_eq_ok hbegin with ⟨callee, root, locals, hscript, hroot, hlocals, rfl⟩
  refine ⟨_, List.Forall₂.cons ⟨rfl, rfl⟩ List.Forall₂.nil, ?_⟩
  rw [Player.rest, tellBelow_onward _ hroot]
  simp only [Story.tell, hscript, hroot, hlocals]
  rfl

/-- Whether a story is played or told, it shows the same and fails in the same way, if the options
of every choice have different names and no script is called or left.  What is seen in a number of
calls is told with fuel enough, and it is all that is told once the program has stopped.  What is
told is seen after some calls, as long as the numbers of frames last. -/
theorem driven_as_told {script : String} {arguments : Dict Value}
    (hbegin : Player.begin story script arguments = .ok p) (hdistinct : story.DistinctOptions)
    (hjumpless : Jumpless story picks p) :
    (∀ calls fuel, DriveLasts story calls picks p → calls * Player.guardLimit ≤ fuel →
      p.drive story calls picks <+: story.tell fuel script arguments picks ∧
        (p.stops story calls picks = true →
          p.drive story calls picks = story.tell fuel script arguments picks)) ∧
      ∀ fuel, ∃ calls, DriveLasts story calls picks p ∧
        (story.tell fuel script arguments picks <+: p.drive story calls picks ∨
          ¬ DriveLasts story (calls + 1) picks p) := by
  have hready : Ready story picks p := by
    refine ⟨begin_wellFormed hbegin, ?_, hjumpless⟩
    rcases begin_eq_ok hbegin with ⟨_, _, _, -, -, -, rfl⟩
    rfl
  constructor
  · intro calls fuel hlasts hfuel
    rcases tell_eq_rest hbegin fuel with ⟨place, htracked, htell⟩
    rw [htell]
    refine drive_told [] calls hready hdistinct htracked hlasts fun level hmem => ?_
    -- At first there is one level, that of the script itself.
    rw [List.mem_singleton.1 hmem]
    exact hfuel
  · intro fuel
    rcases tell_eq_rest hbegin fuel with ⟨place, htracked, htell⟩
    rw [htell]
    exact told_driven [] _ hready hdistinct htracked (Nat.lt_succ_self _)

/-- A question is asked until it is answered with `no`.  The loop is repeated from one group inside
its body and left from another one, deeper. -/
def stubbornTale : Story :=
  .ofScripts [
    ("main", .ofGroups "main" [] [
      ("main", [.declare "v" ⟨"x", .primitive .string, none⟩, .loop "l" "true" "main.body",
        .text "t" "it is ${x}" false]),
      ("main.body", [
        .choice "c" none [⟨"y", "yes", none, false, false, "main.yes"⟩,
          ⟨"n", "no", none, false, false, "main.no"⟩],
        .text "u" "never" false]),
      ("main.yes", [.code "d" "x = \"yes\";", .again "a"]),
      ("main.no", [.code "e" "x = \"no\";", .branch "b" "x == \"no\"" "main.leave" none]),
      ("main.leave", [.leave "z"])])]

def stubbornTale.question : Event :=
  .shown (.choices [⟨0, "y", "yes"⟩, ⟨1, "n", "no"⟩] none)

/-- What the tale shows if it is answered with `yes` and `no`. -/
def stubbornTale.events : List Event :=
  [stubbornTale.question, stubbornTale.question, .shown (.text "it is no"), .shown .ended]

/-- What is seen in four calls is what is told. -/
theorem driven_as_told_stubbornTale :
    stubbornTale.opening.drive stubbornTale 4 [0, 1] = stubbornTale.events ∧
      stubbornTale.tell (4 * Player.guardLimit) "main" [] [0, 1] = stubbornTale.events := by
  have hbegin : Player.begin stubbornTale "main" [] = .ok stubbornTale.opening := rfl
  have hdistinct : stubbornTale.DistinctOptions := by decide
  have hnodes : ∀ node ∈ stubbornTale.nodes, node.isJump = false := by decide
  have hjumpless := jumpless_of_nodes hnodes [0, 1] stubbornTale.opening
  have hlasts : DriveLasts stubbornTale 4 [0, 1] stubbornTale.opening :=
    driveLasts_of_calls 4 (by decide)
  have hseen : stubbornTale.opening.drive stubbornTale 4 [0, 1] = stubbornTale.events := by
    decide +kernel
  have hstops : stubbornTale.opening.stops stubbornTale 4 [0, 1] = true := by decide +kernel
  have htold := (driven_as_told hbegin hdistinct hjumpless).1 4 _ hlasts (Nat.le_refl _)
  exact ⟨hseen, (htold.2 hstops).symm.trans hseen⟩

end StoryPlayer
