import StoryPlayer.Formula.Interpreter
import StoryPlayer.Proofs.Run
import StoryPlayer.Proofs.Stack

/-!
# States of a story that is played

- `Pending.OfferedAt` says that a frame stands at the choice that waits for an answer,
- `Player.WellFormed` says what a state looks like in which a story can be,
- `Move.stacked`, `Step.wellFormed` and `Answer.wellFormed` show that nodes, steps and answers keep
  it,
- `play_wellFormed` concludes that every state is well-formed that is reached from the start of a
  script, whatever is asked of the story and whether or not it succeeds.
-/

namespace StoryPlayer

/-- The frame stands at the choice that waits for an answer.  Some of its options are offered,
numbered from zero. -/
structure Pending.OfferedAt (story : Story) (c : Pending) (f : Frame) : Prop where
  frame : c.frame = f.id
  node : ∃ prompt options, f.current? story = some (.choice c.node prompt options) ∧
    ∀ item ∈ c.items, ∃ option ∈ options, option.id = item.id
  items : c.items ≠ []
  numbered : c.items.map ChoiceItem.index = List.range c.items.length

/-- A state in which a story can be. -/
structure Player.WellFormed (story : Story) (p : Player) : Prop where
  stacked : Frames.Stacked story p.counter p.frames
  /-- A story that is over has no frames and waits for nothing. -/
  ended : p.ended = true → p.frames = [] ∧ p.pending = none
  /-- A choice that waits for an answer is that of the innermost frame. -/
  pending : ∀ c ∈ p.pending, p.ended = false ∧
    ∃ f below, p.frames = f :: below ∧ c.OfferedAt story f

variable {story : Story} {script : String} {p q : Player}

/-! ## Ending frames -/

/-- What becomes of the frames below a script that ends. -/
inductive Settled (story : Story) (scope : Dict Value) (p : Player) :
    Option Continuation → List Frame → Except Fault Unit → Player → Prop
  | concluded : Settled story scope p none [] (.ok ()) p.finished
  /-- The frame below goes on behind its call. -/
  | back {c : Continuation} {lower lower' : Frame} {under under' : List Frame} :
      Frames.writeBack story scope c.refs (lower :: under) = (.ok (), lower' :: under') →
      Settled story scope p (some c) (lower :: under) (.ok ())
        { p with frames := lower'.advanced :: under' }
  | failed {c : Continuation} {below frames : List Frame} {fault : Fault} :
      Frames.writeBack story scope c.refs below = (.error fault, frames) →
      Settled story scope p (some c) below (.error fault) { p with frames }

/-- On a stack of the right shape a script returns to the frame below it. -/
theorem settled_of_settle {counter : UInt64} {root : Frame} {below : List Frame}
    {scope : Dict Value} {result : Except Fault Unit}
    (hstack : Frames.Stacked story counter (root :: below)) (hroot : root.root = true)
    (hp : p.frames = below)
    (h : p.settle story scope root.continuation = (result, q)) :
    Settled story scope p root.continuation below result q := by
  unfold Player.settle at h
  cases hc : root.continuation with
  | none =>
      simp only [hc] at h
      cases h
      rw [hstack.nil_of_no_continuation hroot hc]
      exact Settled.concluded
  | some c =>
      rcases hstack.below_of_continuation hc with ⟨lower, under, rfl⟩
      rcases hstack.caller hc with ⟨hid, hat, -⟩
      have hhas : Frames.has (lower :: under) c.frame = true := by simp [Frames.has, hid]
      simp only [hc, hp, hhas, if_true] at h
      cases hback : Frames.writeBack story scope c.refs (lower :: under) with
      | mk outcome frames =>
          have hrevalued := Frames.revalued_writeBack story scope c.refs (lower :: under)
          rw [hback] at h hrevalued
          cases outcome with
          | error fault =>
              cases h
              exact Settled.failed hback
          | ok _ =>
              cases h
              cases hrevalued with
              | @cons _ lower' _ under' hhead htail =>
                  -- The frame that is looked for is the innermost one that is left.
                  have hstack' : Frames.Stacked story counter (lower' :: under') :=
                    hstack.tail.revalued (List.Forall₂.cons hhead htail)
                  have hid' : c.frame = lower'.id := by rw [hid, hhead.same]
                  have hat' : c.node = lower'.node + 1 := by rw [hat, hhead.same]
                  rw [hid', hstack'.moveTo_top, hat']
                  exact Settled.back hback

/-- When a script ends, what is left below it is a stack. -/
theorem Settled.stacked {counter : UInt64} {root : Frame} {below : List Frame}
    {scope : Dict Value} {result : Except Fault Unit}
    (hstack : Frames.Stacked story counter (root :: below))
    (h : Settled story scope p root.continuation below result q) :
    Frames.Stacked story counter q.frames := by
  generalize hc : root.continuation = continuation at h
  cases h with
  | concluded => exact Frames.Stacked.nil
  | @back c lower lower' under under' hback =>
      have hrevalued := Frames.revalued_writeBack story scope c.refs (lower :: under)
      rw [hback] at hrevalued
      rcases hstack.caller hc with ⟨-, -, id, target, arguments, hcall⟩
      cases hrevalued with
      | cons hhead htail =>
          have hcall' : lower'.current? story = some (.call id target arguments) := by
            rw [hhead.same]
            exact hcall
          exact (hstack.tail.revalued (List.Forall₂.cons hhead htail)).advanced hcall'
  | @failed c _ frames fault hback =>
      have hrevalued := Frames.revalued_writeBack story scope c.refs below
      rw [hback] at hrevalued
      exact hstack.tail.revalued hrevalued

/-- No number is used by it. -/
theorem Settled.counter {c : Option Continuation} {below : List Frame} {scope : Dict Value}
    {result : Except Fault Unit} (h : Settled story scope p c below result q) :
    q.counter = p.counter := by
  cases h <;> rfl

/-- The innermost frame is the one that is ended. -/
theorem finishFrame_top {f : Frame} {below : List Frame}
    (hstack : Frames.Stacked story p.counter (f :: below)) (hp : p.frames = f :: below) :
    p.finishFrame story f.id =
      if f.root then Player.settle story f.scope f.continuation { p with frames := below }
      else (.ok (), { p with frames := below }) := by
  unfold Player.finishFrame
  rw [hp, hstack.takeOut?_top]

/-! ## What is offered -/

/-- What passes the sift was among the options. -/
theorem mem_of_filterAvailable {options shown : List ChoiceOption}
    (h : Act.filterAvailable story script options p = .ok (shown, q)) : shown ⊆ options := by
  induction options generalizing p q shown with
  | nil =>
      rcases Act.pure_eq_ok.1 h with ⟨rfl, -⟩
      exact List.Subset.refl []
  | cons option rest ih =>
      rcases Act.bind_eq_ok.1 h with ⟨here, _, -, hrest⟩
      rcases Act.bind_eq_ok.1 hrest with ⟨others, _, hothers, hreturn⟩
      rcases Act.pure_eq_ok.1 hreturn with ⟨hshown, -⟩
      have hsub : others ⊆ option :: rest := List.subset_cons_of_subset _ (ih hothers)
      rw [← hshown]
      split
      · exact List.cons_subset_cons option (ih hothers)
      · exact hsub

/-- Only options of the choice are offered. -/
theorem mem_of_offered {options shown : List ChoiceOption}
    (h : Act.offered story script options p = .ok (shown, q)) : shown ⊆ options := by
  rcases Act.bind_eq_ok.1 h with ⟨ordinary, r, hordinary, hrest⟩
  split at hrest
  · -- No ordinary option is left, so only the one to fall back on may be offered.
    cases hfind : options.find? ChoiceOption.fallOver with
    | none =>
        simp only [hfind] at hrest
        rcases Act.pure_eq_ok.1 hrest with ⟨rfl, -⟩
        exact List.nil_subset options
    | some option =>
        simp only [hfind] at hrest
        intro shown hshown
        rcases List.mem_singleton.1 (mem_of_filterAvailable hrest hshown) with rfl
        exact List.mem_of_find?_eq_some hfind
  · rcases Act.pure_eq_ok.1 hrest with ⟨rfl, -⟩
    exact List.Subset.trans (mem_of_filterAvailable hordinary) (List.filter_subset_self _)

/-- The items are the options in order, with their places. -/
theorem items_of_renderOptions {index : Nat} {options : List ChoiceOption}
    {items : List ChoiceItem} (h : Act.renderOptions story index options p = .ok (items, q)) :
    items.map ChoiceItem.id = options.map ChoiceOption.id ∧
      items.map ChoiceItem.index = List.range' index options.length := by
  induction options generalizing index p q items with
  | nil =>
      rcases Act.pure_eq_ok.1 h with ⟨rfl, -⟩
      exact ⟨rfl, rfl⟩
  | cons option rest ih =>
      rcases Act.bind_eq_ok.1 h with ⟨text, _, -, hrest⟩
      rcases Act.bind_eq_ok.1 hrest with ⟨others, _, hothers, hreturn⟩
      rcases Act.pure_eq_ok.1 hreturn with ⟨rfl, -⟩
      rcases ih hothers with ⟨hids, hindices⟩
      simp [hids, hindices, List.range'_succ]

/-! ## Nodes -/

def Player.StandsAt (story : Story) (p : Player) (node : Node) : Prop :=
  ∃ f below, p.frames = f :: below ∧ f.current? story = some node

/-- Formulas leave the innermost frame at its node. -/
theorem Player.Evaluated.current? {node : Node} {f : Frame} {below : List Frame}
    (heval : p.Evaluated q) (hat : p.StandsAt story node) (hq : q.frames = f :: below) :
    f.current? story = some node := by
  rcases hat with ⟨g, under, hg, hnode⟩
  rcases heval.cons hq with ⟨_, _, hcons, hhead, -⟩
  rcases List.cons.inj (hg.symm.trans hcons) with ⟨rfl, rfl⟩
  rw [hhead.same]
  exact hnode

/-- Formulas leave the innermost frame where it stands. -/
theorem Player.Evaluated.standing {node : Node} {f : Frame} {below : List Frame}
    (heval : p.Evaluated q) (hp : Frames.Stacked story p.counter p.frames)
    (hat : p.StandsAt story node) (hq : q.frames = f :: below) :
    Frames.Stacked story q.counter (f :: below) ∧ f.current? story = some node := by
  refine ⟨?_, heval.current? hat hq⟩
  rw [heval.counter, ← hq]
  exact hp.revalued heval.frames

theorem exists_of_isLoop {place : Option Node} (h : Act.isLoop place = true) :
    ∃ node, place = some node := by
  cases place with
  | none => cases h
  | some node => exact ⟨node, rfl⟩

/-- A group may be entered from the node at which the frame below stands. -/
theorem stacked_entered {f : Frame} {below : List Frame} {group : String}
    {completion : Completion} {found : String × Group} (hq : q.frames = f :: below)
    (hstack : Frames.Stacked story q.counter (f :: below)) (hcounter : q.counter ≤ q.counter + 1)
    (hgroup : story.group group = .ok found)
    (habove : Above story { Player.innerFrame group completion with id := q.counter } f) :
    Frames.Stacked story (q.push (Player.innerFrame group completion)).counter
      (q.push (Player.innerFrame group completion)).frames := by
  simp only [Player.push, hq]
  refine hstack.push hcounter rfl (Frame.placed_at_start hgroup rfl) ?_ ?_
  · intro hnil
    cases hnil
  · intro lower hlower
    obtain rfl : f = lower := Option.some.inj hlower
    exact habove

/-- A script may be started above the frame that called it, or in place of another script. -/
theorem stacked_started {group : String} {locals : Locals} {c : Option Continuation}
    {found : String × Group} (hstack : Frames.Stacked story q.counter q.frames)
    (hcounter : q.counter ≤ q.counter + 1) (hgroup : story.group group = .ok found)
    (hbottom : q.frames = [] → c = none)
    (habove : ∀ f ∈ q.frames.head?,
      Above story { Player.rootFrame group locals c with id := q.counter } f) :
    Frames.Stacked story (q.push (Player.rootFrame group locals c)).counter
      (q.push (Player.rootFrame group locals c)).frames :=
  hstack.push hcounter rfl (Frame.placed_at_start hgroup rfl)
    (fun hnil => ⟨rfl, hbottom hnil⟩) habove

/-- A script that takes the place of another one returns to the same caller. -/
theorem stacked_replaced {root : Frame} {below : List Frame} {group : String} {locals : Locals}
    {c d : Continuation} {found : String × Group}
    (hstack : Frames.Stacked story q.counter (root :: below))
    (hrevalued : Frames.Revalued below q.frames) (hcounter : q.counter ≤ q.counter + 1)
    (hgroup : story.group group = .ok found) (hc : root.continuation = some c)
    (hframe : d.frame = c.frame) (hnode : d.node = c.node) :
    Frames.Stacked story (q.push (Player.rootFrame group locals (some d))).counter
      (q.push (Player.rootFrame group locals (some d))).frames := by
  -- The frame below is the same one as before; only values of its variables may be new.
  rcases hstack.below_of_continuation hc with ⟨lower, under, rfl⟩
  have hlinked := (List.isChain_cons_cons.1 hstack.linked).1
  cases hq : q.frames with
  | nil =>
      rw [hq] at hrevalued
      cases hrevalued
  | cons lower' under' =>
      rw [hq] at hrevalued
      have hbelow := hstack.tail.revalued hrevalued
      rw [← hq] at hbelow
      refine stacked_started hbelow hcounter hgroup (by simp [hq]) ?_
      intro f hf
      obtain rfl : lower' = f := by simpa [hq] using hf
      cases hrevalued with
      | cons hhead _ =>
          rw [← above_outline, hhead.outline, above_outline]
          exact hlinked.replaced hc rfl rfl hframe hnode

/-- A node that is run to its end leaves a stack of the right shape. -/
theorem Move.stacked {node : Node} {out : Option Output} (h : Move story script p node out q)
    (hp : Frames.Stacked story p.counter p.frames) (hat : p.StandsAt story node)
    (hcounter : p.counter ≤ q.counter) : Frames.Stacked story q.counter q.frames := by
  cases h with
  | textUsed _ hframes =>
      rcases (Player.Evaluated.refl p).standing hp hat hframes with ⟨hstack, hnode⟩
      exact hstack.advanced hnode
  | text _ hrender hframes =>
      obtain ⟨hstack, hnode⟩ :=
        ((Act.evaluates_render story _).ok hrender).standing hp hat hframes
      exact hstack.advanced hnode
  | code hexecute hframes =>
      obtain ⟨hstack, hnode⟩ :=
        ((Act.evaluates_execute story _).ok hexecute).standing hp hat hframes
      exact hstack.advanced hnode
  | declare hvalue hframes _ _ =>
      rcases hvalue.evaluated.standing hp hat hframes with ⟨hstack, hnode⟩
      exact (hstack.advanced hnode).congr rfl
  | branchOver hcondition hframes =>
      obtain ⟨hstack, hnode⟩ :=
        ((Act.evaluates_condition story _).ok hcondition).standing hp hat hframes
      exact hstack.advanced hnode
  | @branchInto _ _ yes group no holds _ f _ _ hcondition hframes htarget hgroup =>
      have heval := (Act.evaluates_condition story _).ok hcondition
      rcases heval.standing hp hat hframes with ⟨hstack, hnode⟩
      -- The frame below moves on before the branch is entered.
      refine stacked_entered rfl (hstack.advanced hnode) ?_ hgroup ?_
      · simpa only [Player.push, heval.counter] using hcounter
      · refine Above.nested rfl rfl rfl rfl hnode ?_
        cases holds with
        | true =>
            obtain rfl : yes = group := Option.some.inj htarget
            exact List.mem_cons_self
        | false =>
            obtain rfl : no = some group := htarget
            exact List.mem_cons_of_mem _ List.mem_cons_self
  | loopOver hcondition hframes =>
      obtain ⟨hstack, hnode⟩ :=
        ((Act.evaluates_condition story _).ok hcondition).standing hp hat hframes
      exact hstack.advanced hnode
  | @loopInto _ _ _ r _ hcondition hgroup =>
      have heval := (Act.evaluates_condition story _).ok hcondition
      obtain ⟨f, below, hframes⟩ : ∃ f below, r.frames = f :: below := by
        rcases hat with ⟨top, under, htop, -⟩
        rcases heval.top htop with ⟨f, below, hframes, -⟩
        exact ⟨f, below, hframes⟩
      rcases heval.standing hp hat hframes with ⟨hstack, hnode⟩
      -- The frame below stays at the loop, which is tested again.
      refine stacked_entered hframes hstack ?_ hgroup (Above.looping rfl rfl rfl hnode)
      simpa only [Player.push, heval.counter] using hcounter
  | choiceOver hoffered hframes =>
      obtain ⟨hstack, hnode⟩ :=
        ((Act.evaluates_offered story _ _).ok hoffered).standing hp hat hframes
      exact hstack.advanced hnode
  | choice hoffered _ hitems hprompt hframes =>
      have heval := evaluated_of_choice hoffered hitems hprompt
      rw [← heval.counter] at hp
      exact hp.revalued heval.frames
  | call hframes _ _ hroot hpassed _ _ =>
      have heval := (Act.evaluates_passArguments story _ _ _ _ _).ok hpassed
      rcases heval.standing hp hat hframes with ⟨hstack, hnode⟩
      -- The caller stays at the call until the script returns.
      rw [← hframes] at hstack
      refine stacked_started hstack ?_ hroot (by simp [hframes]) ?_
      · simpa only [Player.push, heval.counter] using hcounter
      · intro lower hlower
        obtain rfl : _ = lower := by simpa [hframes] using hlower
        exact Above.called rfl rfl rfl rfl hnode
  | tailCall hframes _ _ hroot hpassed _ hc _ _ =>
      have heval := (Act.evaluates_passArguments story _ _ _ _ _).ok hpassed
      rcases heval.standing hp hat hframes with ⟨hstack, -⟩
      refine stacked_replaced hstack (Frames.Revalued.refl _) ?_ hroot hc rfl rfl
      simpa only [Player.push, heval.counter] using hcounter
  | leaveScript hroot hsettle =>
      rcases Frames.currentRoot?_suffix hroot with ⟨his, hsuffix⟩
      have hstack := hp.suffix hsuffix
      have hsettled := settled_of_settle hstack his rfl hsettle
      rw [hsettled.counter]
      exact hsettled.stacked hstack
  | transferAtBottom _ hgroup hvalues _ hroot hc =>
      have heval := (Act.evaluates_transferArguments story _ _ _ _ _).ok hvalues
      rcases Frames.currentRoot?_suffix hroot with ⟨his, hsuffix⟩
      have hq := hp.revalued heval.frames
      rw [← heval.counter] at hq
      have hstack := hq.suffix hsuffix
      -- A script without a caller is the lowest frame; nothing is left below the new one.
      rcases hstack.nil_of_no_continuation his hc with rfl
      refine stacked_started hstack.tail ?_ hgroup (fun _ => rfl) (by simp)
      simpa only [Player.push, heval.counter] using hcounter
  | transfer _ hgroup hvalues _ hroot hc hover =>
      have heval := (Act.evaluates_transferArguments story _ _ _ _ _).ok hvalues
      rcases Frames.currentRoot?_suffix hroot with ⟨-, hsuffix⟩
      have hq := hp.revalued heval.frames
      rw [← heval.counter] at hq
      refine stacked_replaced (hq.suffix hsuffix) hover.revalued ?_ hgroup hc rfl rfl
      simpa only [Player.push, heval.counter] using hcounter
  | leave hbelow hgroup hloop =>
      have hstack := hp.suffix (Frames.belowLoop?_suffix hbelow)
      rcases exists_of_isLoop hloop with ⟨node, hnode⟩
      exact hstack.advanced ((nodeAt?_of_group hgroup).trans hnode)
  | again hbelow _ _ => exact hp.suffix (Frames.belowLoop?_suffix hbelow)

/-- A choice that opens is that of the innermost frame. -/
theorem Move.offeredAt {node : Node} {out : Option Output} {c : Pending}
    (h : Move story script p node out q) (hat : p.StandsAt story node)
    (hpending : p.pending = none) (hc : q.pending = some c) :
    ∃ f below, q.frames = f :: below ∧ c.OfferedAt story f := by
  -- Only what is shown opens a choice, so there is one rule left.
  obtain rfl : out = some c.output := h.kept.shown hpending hc
  cases h with
  | @choice id prompt _ options shown _ r s t f below hoffered hshown hitems hprompt hframes =>
      have heval := evaluated_of_choice hoffered hitems hprompt
      have hnode := heval.current? hat hframes
      rcases items_of_renderOptions hitems with ⟨hids, hindices⟩
      have hlength : c.items.length = shown.length := by simpa using congrArg List.length hids
      have hopened : ⟨f.id, id, c.items, c.prompt⟩ = c := Option.some.inj hc
      have hchoice : c.node = id := (congrArg Pending.node hopened).symm
      rw [← hchoice] at hnode
      refine ⟨f, below, hframes, (congrArg Pending.frame hopened).symm,
        ⟨prompt, options, hnode, ?_⟩, ?_, ?_⟩
      · intro item hitem
        have hid : item.id ∈ shown.map ChoiceOption.id := hids ▸ List.mem_map_of_mem hitem
        rcases List.mem_map.1 hid with ⟨option, hoption, heq⟩
        exact ⟨option, mem_of_offered hoffered hoption, heq⟩
      · intro hnil
        rw [hnil] at hlength
        exact hshown (List.length_eq_zero_iff.1 hlength.symm)
      · rw [hindices, hlength, List.range_eq_range']

/-! ## Steps and answers -/

/-- A frame stands at the node that its group has at its place. -/
theorem standsAt_of_group {f : Frame} {below : List Frame} {found : String × Group} {node : Node}
    (hp : p.frames = f :: below) (hgroup : story.group f.group = .ok found)
    (hnode : found.2.nodes[f.node]? = some node) : p.StandsAt story node :=
  ⟨f, below, hp, (nodeAt?_of_group hgroup).trans hnode⟩

/-- The end of a group leaves a stack. -/
theorem finishFrame_stacked {f : Frame} {below : List Frame} {result : Except Fault Unit}
    (hstack : Frames.Stacked story p.counter p.frames) (hp : p.frames = f :: below)
    (h : p.finishFrame story f.id = (result, q)) : Frames.Stacked story q.counter q.frames := by
  rw [hp] at hstack
  rw [finishFrame_top hstack hp] at h
  by_cases hroot : f.root = true
  · rw [if_pos hroot] at h
    have hsettled := settled_of_settle hstack hroot rfl h
    rw [hsettled.counter]
    exact hsettled.stacked hstack
  · rw [if_neg hroot] at h
    cases h
    exact hstack.tail

/-- A step leaves a stack, provided that the numbers last. -/
theorem Step.stacked {progress : Progress} (h : Step story p progress q)
    (hp : Frames.Stacked story p.counter p.frames) (hcounter : p.counter ≤ q.counter) :
    Frames.Stacked story q.counter q.frames := by
  cases h with
  | concluded _ => exact hp
  | groupMissing _ _ => exact hp
  | finished hframes _ _ hfinish => exact finishFrame_stacked hp hframes hfinish
  | finishFailed hframes _ _ hfinish => exact finishFrame_stacked hp hframes hfinish
  | moved hframes hgroup hnode hmove =>
      exact hmove.stacked hp (standsAt_of_group hframes hgroup hnode) hcounter
  | nodeFailed _ _ _ _ => exact hp

/-- Without frames a step does nothing but end the story. -/
theorem Step.eq_stop {progress : Progress} (h : Step story p progress q) (hp : p.frames = []) :
    q = p.stop := by
  cases h with
  | concluded _ => rfl
  | groupMissing hframes _ => simp [hp] at hframes
  | finished hframes _ _ _ => simp [hp] at hframes
  | finishFailed hframes _ _ _ => simp [hp] at hframes
  | moved hframes _ _ _ => simp [hp] at hframes
  | nodeFailed hframes _ _ _ => simp [hp] at hframes

/-- A choice that a step shows belongs to the innermost frame, which stands at it. -/
theorem Step.offeredAt {progress : Progress} {c : Pending} (h : Step story p progress q)
    (hpending : p.pending = none) (hc : q.pending = some c) :
    ∃ f below, q.frames = f :: below ∧ c.OfferedAt story f := by
  have hshown : progress.output? = some c.output := h.kept.shown hpending hc
  cases h with
  | concluded _ => cases hshown
  | groupMissing _ _ => cases hshown
  | finished _ _ _ _ => cases hshown
  | finishFailed _ _ _ _ => cases hshown
  | moved hframes hgroup hnode hmove =>
      exact hmove.offeredAt (standsAt_of_group hframes hgroup hnode) hpending hc
  | nodeFailed _ _ _ _ => cases hshown

/-- A step, whether or not it fails, leaves a well-formed state. -/
theorem Step.wellFormed {progress : Progress} (h : Step story p progress q)
    (hp : p.WellFormed story) (hpending : p.pending = none) (hcounter : p.counter ≤ q.counter) :
    q.WellFormed story := by
  by_cases hover : p.ended = true
  · -- There are no frames any more, and the step only says so once more.
    rcases hp.ended hover with ⟨hnil, -⟩
    rcases h.eq_stop hnil with rfl
    exact ⟨hp.stacked, fun _ => ⟨hnil, hpending⟩, fun c hc => by simp [Player.stop, hpending] at hc⟩
  · refine ⟨h.stacked hp.stacked hcounter, fun hended => ?_, fun c hc => ?_⟩
    · rcases h.kept.ended with hsame | hfalse | ⟨hnil, hsame | hnone⟩
      · exact absurd (hsame ▸ hended) hover
      · simp [hfalse] at hended
      · exact ⟨hnil, hsame.trans hpending⟩
      · exact ⟨hnil, hnone⟩
    · rcases h.offeredAt hpending hc with ⟨f, below, hframes, hoffered⟩
      refine ⟨?_, f, below, hframes, hoffered⟩
      -- The story has not ended, as the choice has a frame.
      rcases h.kept.ended with hsame | hfalse | ⟨hnil, -⟩
      · simpa [hsame] using hover
      · exact hfalse
      · simp [hnil] at hframes

/-- The frame of a choice that waits is found. -/
theorem upTo?_pending {c : Pending} (hp : p.WellFormed story) (hc : p.pending = some c) :
    ∃ f below, p.frames = f :: below ∧ Frames.upTo? c.frame p.frames = some (f, below) := by
  rcases hp.pending c hc with ⟨-, f, below, hframes, hoffered⟩
  have hstack := hp.stacked
  rw [hframes] at hstack
  refine ⟨f, below, hframes, ?_⟩
  rw [hframes, hoffered.frame]
  exact hstack.upTo?_top

/-- The option that an answer stands for is one of the choice. -/
theorem mem_of_optionFor? {node : Node} {choice item : String} {option : ChoiceOption}
    (h : Act.optionFor? (some node) choice item = some option) : option.group ∈ node.branches := by
  unfold Act.optionFor? at h
  split at h
  · next id prompt options heq =>
    rcases Option.some.inj heq with rfl
    split at h
    · exact List.mem_map_of_mem (List.mem_of_find?_eq_some h)
    · cases h
  · cases h

/-- An answer leaves a well-formed state. -/
theorem Answer.wellFormed {index : Nat} (h : Answer story p index q) (hp : p.WellFormed story)
    (hcounter : p.counter ≤ q.counter) : q.WellFormed story := by
  cases h with
  | @mk c item f below found entered option hpending _ hframe hgroup hoption hentered =>
      rcases hp.pending c hpending with ⟨hended, top, under, hframes, hoffered⟩
      have hstack := hp.stacked
      rw [hframes] at hstack
      -- The frame that is looked for is the innermost one.
      rw [hframes, hoffered.frame, hstack.upTo?_top] at hframe
      rcases Prod.mk.inj (Option.some.inj hframe) with ⟨rfl, rfl⟩
      rcases hoffered.node with ⟨prompt, options, hnode, -⟩
      have hplace : found.2.nodes[top.node]? = some (.choice c.node prompt options) :=
        (nodeAt?_of_group hgroup).symm.trans hnode
      rw [hplace] at hoption
      refine ⟨?_, fun hover => ?_, fun d hd => by cases hd⟩
      · refine stacked_entered rfl (hstack.advanced hnode) hcounter hentered ?_
        exact Above.nested rfl rfl rfl rfl hnode (mem_of_optionFor? hoption)
      · exact absurd (hended.symm.trans hover) (by simp)

/-! ## Whole runs -/

/-- A story starts in a well-formed state. -/
theorem begin_wellFormed {arguments : Dict Value}
    (h : Player.begin story script arguments = .ok p) : p.WellFormed story := by
  rcases begin_eq_ok h with ⟨callee, root, locals, -, hroot, -, rfl⟩
  refine ⟨?_, ?_, ?_⟩
  · have hfirst : Player.firstFrame ≤ Player.firstFrame + 1 := by decide
    refine stacked_started Frames.Stacked.nil hfirst hroot (fun _ => rfl) ?_
    intro f hf
    cases hf
  · intro hended
    cases hended
  · intro c hc
    cases hc

/-- In every state that is reached from the start of a script by asking for the next thing to show
and by answering choices, successfully or not, the stack is well-formed, as long as the numbers of
frames last. -/
theorem play_wellFormed {arguments : Dict Value} {requests : List Request}
    (hbegin : Player.begin story script arguments = .ok p)
    (hlasts : CounterLasts story p requests) : (p.play story requests).WellFormed story := by
  refine play_lasting requests (begin_wellFormed hbegin) hlasts ?_ ?_
  · intro p progress q hp hpending hdispatch hcounter
    exact (step_of_dispatch hdispatch).wellFormed hp hpending hcounter
  · intro p index q hp hanswer hcounter
    exact hanswer.wellFormed hp hcounter

/-- A story of scripts alone, without documents and functions of a host. -/
def Story.ofScripts (scripts : Dict Script) : Story where
  scripts := scripts
  globals := []
  version := defaultVersion
  seed := defaultSeed
  host := .none
  evaluator := Formula.interpreter

/-- A script that starts with the group of its own name. -/
def Script.ofGroups (name : String) (params : List Param) (groups : List (String × List Node)) :
    Script where
  name := name
  params := params
  root := name
  groups := groups.map fun group => (group.1, ⟨group.1, none, group.2⟩)
  visibleGlobals := []

/-- The state at the start of a script `main` without parameters. -/
def Story.opening (story : Story) : Player :=
  (Player.fresh story.seed).push (Player.rootFrame "main" ⟨[], []⟩ none)

/-- A script calls another one, which offers a choice inside of a loop. -/
def nestedTale : Story :=
  .ofScripts [
    ("inner", .ofGroups "inner" [] [
      ("inner", [.loop "l" "true" "inner.body"]),
      ("inner.body", [.choice "c" none [⟨"o", "go on", none, false, false, "inner.body.o"⟩]]),
      ("inner.body.o", [.text "t" "hello" false])]),
    ("main", .ofGroups "main" [] [("main", [.call "k" "inner" []])])]

/-- A frame of every kind stands in its place after an answer that fails and one that succeeds. -/
theorem play_wellFormed_nestedTale :
    (nestedTale.opening.play nestedTale [.next, .choose 7, .choose 0, .next]).frames.map Frame.id =
        [4, 3, 2, 1] ∧
      (nestedTale.opening.play nestedTale [.next, .choose 7, .choose 0, .next]).WellFormed
        nestedTale := by
  have hbegin : Player.begin nestedTale "main" [] = .ok nestedTale.opening := rfl
  exact ⟨by decide +kernel, play_wellFormed hbegin (counterLasts_of_length _ (by decide))⟩

end StoryPlayer
