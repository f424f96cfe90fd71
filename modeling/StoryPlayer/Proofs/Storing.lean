import StoryPlayer.Proofs.Tidy

/-!
# Runs through states that can be stored

- `Move.tidy` shows that a node that is run to its end leaves tidy frames,
- `Step.tidy` and `Answer.tidy` show that steps and answers keep states tidy,
- `play_tidy` concludes that every state is tidy that is reached from the start of a script with
  finite arguments.
-/

namespace StoryPlayer

variable {story : Story} {script : String} {p q : Player}

/-! ## Scripts that start -/

structure Locals.Tidy (locals : Locals) : Prop where
  scope : Dict.Storable (fun x => x.isFinite = true) locals.scope
  sorted : Dict.Sorted locals.types
  types : ∀ entry ∈ locals.types, entry.2.Tidy

/-- Parameters start with the defaults of their types, which are finite. -/
theorem tidy_ofParams {params : List Param} (h : ∀ param ∈ params, param.type.Tidy) :
    (Locals.ofParams params).Tidy := by
  suffices hfold : ∀ locals : Locals, locals.Tidy →
      (params.foldl (fun locals param =>
        { scope := Dict.insert locals.scope param.name (Value.default param.type)
          types := Dict.insert locals.types param.name param.type }) locals : Locals).Tidy from
    hfold ⟨[], []⟩ ⟨⟨List.Pairwise.nil, by simp⟩, List.Pairwise.nil, by simp⟩
  induction params with
  | nil => exact fun locals hlocals => hlocals
  | cons param rest ih =>
      intro locals hlocals
      have htype := h param List.mem_cons_self
      apply ih fun other hother => h other (List.mem_cons_of_mem _ hother)
      refine ⟨⟨Dict.sorted_insert hlocals.scope.sorted _ _, ?_⟩,
        Dict.sorted_insert hlocals.sorted _ _, fun entry hentry => ?_⟩
      · exact Act.finite_passed hlocals.scope.values (Value.finite_default htype.ordered)
      · rcases Dict.mem_of_mem_insert hentry with rfl | hold
        · exact htype
        · exact hlocals.types entry hold

theorem tidy_of_assign {values : Dict Value} {locals locals' : Locals} (hlocals : locals.Tidy)
    (hvalues : ∀ entry ∈ values, entry.2.Finite)
    (h : Locals.assign script values locals = .ok locals') : locals'.Tidy := by
  induction values generalizing locals with
  | nil =>
      cases h
      exact hlocals
  | cons entry rest ih =>
      rcases entry with ⟨name, value⟩
      simp only [Locals.assign] at h
      split at h
      · cases h
      · split at h
        · apply ih ?_ (fun later hlater => hvalues later (List.mem_cons_of_mem _ hlater)) h
          have hvalue : value.Finite := hvalues _ List.mem_cons_self
          exact ⟨⟨Dict.sorted_insert hlocals.scope.sorted _ _,
            Act.finite_passed hlocals.scope.values hvalue⟩, hlocals.sorted, hlocals.types⟩
        · cases h

/-- A script starts with tidy variables if its arguments are finite. -/
theorem tidy_of_locals {values : Dict Value} {locals : Locals} (hstory : story.Tidy)
    (hvalues : ∀ entry ∈ values, entry.2.Finite) (h : story.locals script values = .ok locals) :
    locals.Tidy := by
  unfold Story.locals at h
  split at h
  · cases h
  · next callee hcallee =>
    have hparams := tidy_ofParams (hstory _ (Dict.mem_of_get? hcallee)).params
    exact tidy_of_assign hparams hvalues h

/-- The frame of a script can be stored if its variables and its continuation can. -/
theorem Frame.tidy_root {group : String} {locals : Locals} {c : Option Continuation}
    (h : locals.Tidy) (hc : ∀ d ∈ c, d.Storable) : (Player.rootFrame group locals c).Tidy :=
  ⟨⟨Nat.zero_le _, h.scope, h.sorted, fun entry hentry => (h.types entry hentry).ordered, hc⟩,
    fun entry hentry => (h.types entry hentry).shallow⟩

/-! ## Frames that end -/

/-- Going back to a caller hands finite values over. -/
theorem tidy_settle {scope : Dict Value} {c : Option Continuation} (hp : Frames.Tidy p.frames)
    (hscope : ∀ entry ∈ scope, entry.2.Finite) (hc : ∀ d ∈ c, d.Storable) :
    Frames.Tidy (p.settle story scope c).2.frames := by
  unfold Player.settle
  cases c with
  | none => simp [Player.finished, Frames.Tidy]
  | some c =>
      have hback := @Frames.tidy_writeBack story _ _ c.refs hp hscope
      simp only
      split
      · split
        · next frames hwrite =>
          rw [hwrite] at hback
          exact Frames.tidy_moveTo hback (hc c rfl).node
        · next fault frames hwrite =>
          rw [hwrite] at hback
          exact hback
      · simp [Player.finished, Frames.Tidy]

/-- The end of a group leaves what can be stored. -/
theorem tidy_finishFrame {id : UInt64} (hp : Frames.Tidy p.frames) :
    Frames.Tidy (p.finishFrame story id).2.frames := by
  unfold Player.finishFrame
  split
  · exact hp
  · next frame others htake =>
    have hframe := hp frame (Frames.takeOut?_mem htake)
    have hothers := hp.subset (Frames.takeOut?_subset htake)
    split
    · exact tidy_settle hothers hframe.storable.scope.values hframe.storable.continuation
    · exact hothers

/-! ## Nodes -/

/-- The node to be run is one of the story. -/
theorem Story.Tidy.node {node : Node} (h : story.Tidy) (hat : p.StandsAt story node) :
    node.Tidy := by
  rcases hat with ⟨f, below, -, hcurrent⟩
  rcases Frame.current?_eq_some hcurrent with ⟨found, hgroup, hnode⟩
  exact (h.group hgroup).nodes node (List.mem_of_getElem? hnode)

/-- A first value is finite, whether it is computed or the default. -/
theorem FirstValue.tidy {d : Declaration} {value : Value} (h : FirstValue story d p value q)
    (hd : d.type.Tidy) (hp : Frames.Tidy p.frames) : Frames.Tidy q.frames ∧ value.Finite := by
  unfold FirstValue at h
  split at h
  · exact Act.tidies_evaluate story _ _ _ _ hp h
  · rcases h with ⟨rfl, rfl⟩
    exact ⟨hp, Value.finite_default hd.ordered⟩

/-- The frame that runs a node moves on after it. -/
theorem tidy_advanced {node : Node} {f : Frame} {below : List Frame} (hstory : story.Tidy)
    (heval : p.Evaluated q) (hat : p.StandsAt story node) (hq : Frames.Tidy q.frames)
    (hframes : q.frames = f :: below) : Frames.Tidy (f.advanced :: below) := by
  have hcurrent := heval.current? hat hframes
  rw [hframes] at hq
  exact hq.tail.cons (hq.head.advanced hstory hcurrent)

theorem tidy_pushed {frame : Frame} (hq : Frames.Tidy q.frames) (hframe : frame.Tidy) :
    Frames.Tidy (q.push frame).frames :=
  hq.cons hframe.numbered

/-- The frame that owns a loop stands at it. -/
theorem current?_of_isLoop {owner : Frame} {found : String × Group}
    (hgroup : story.group owner.group = .ok found)
    (hloop : Act.isLoop found.2.nodes[owner.node]? = true) :
    ∃ node, owner.current? story = some node := by
  rcases exists_of_isLoop hloop with ⟨node, hnode⟩
  exact ⟨node, (nodeAt?_of_group hgroup).trans hnode⟩

/-- A node that is run to its end leaves tidy frames. -/
theorem Move.tidy {node : Node} {out : Option Output} (h : Move story script p node out q)
    (hstory : story.Tidy) (hat : p.StandsAt story node) (hp : Frames.Tidy p.frames) :
    Frames.Tidy q.frames := by
  -- What is computed first leaves tidy frames.  Then the innermost frame moves on to a place that can
  -- be numbered, or a frame is pushed, whose variables are parameters if it is that of a script.
  cases h with
  | textUsed _ hframes => exact tidy_advanced hstory (Player.Evaluated.refl p) hat hp hframes
  | text _ hrender hframes =>
      have heval := (Act.evaluates_render story _).ok hrender
      have hq := (Act.tidies_render story _ _ _ _ hp hrender).1
      exact tidy_advanced hstory heval hat hq hframes
  | code hexecute hframes =>
      have heval := (Act.evaluates_execute story _).ok hexecute
      have hq := (Act.tidies_execute story _ _ _ _ hp hexecute).1
      exact tidy_advanced hstory heval hat hq hframes
  | declare hvalue hframes _ _ =>
      have htype := hstory.node hat
      rcases hvalue.tidy htype hp with ⟨hq, hfinite⟩
      have hmoved := tidy_advanced hstory hvalue.evaluated hat hq hframes
      exact hmoved.tail.cons ((hmoved.head.assigned hfinite).declared htype)
  | branchOver hcondition hframes =>
      have heval := (Act.evaluates_condition story _).ok hcondition
      have hq := (Act.tidies_condition story _ _ _ _ hp hcondition).1
      exact tidy_advanced hstory heval hat hq hframes
  | branchInto hcondition hframes _ _ =>
      have heval := (Act.evaluates_condition story _).ok hcondition
      have hq := (Act.tidies_condition story _ _ _ _ hp hcondition).1
      have hbelow := tidy_advanced hstory heval hat hq hframes
      exact tidy_pushed hbelow (Frame.tidy_inner _ _)
  | loopOver hcondition hframes =>
      have heval := (Act.evaluates_condition story _).ok hcondition
      have hq := (Act.tidies_condition story _ _ _ _ hp hcondition).1
      exact tidy_advanced hstory heval hat hq hframes
  | loopInto hcondition _ =>
      have hq := (Act.tidies_condition story _ _ _ _ hp hcondition).1
      exact tidy_pushed hq (Frame.tidy_inner _ _)
  | choiceOver hoffered hframes =>
      have heval := (Act.evaluates_offered story _ _).ok hoffered
      have hq := (Act.tidies_offered story _ _ _ _ _ hp hoffered).1
      exact tidy_advanced hstory heval hat hq hframes
  | choice hoffered _ hitems hprompt _ =>
      have hq := (Act.tidies_offered story _ _ _ _ _ hp hoffered).1
      have hr := (Act.tidies_renderOptions story _ _ _ _ _ hq hitems).1
      exact (Act.tidies_renderOptional story _ _ _ _ hr hprompt).1
  | @call _ _ _ _ passed locals r f below _ _ hframes _ _ _ hpassed _ hlocals =>
      have heval := (Act.evaluates_passArguments story _ _ _ _ _).ok hpassed
      have hnone : Act.Passed.Tidy ⟨[], []⟩ := ⟨by simp, List.Pairwise.nil⟩
      rcases Act.tidies_passArguments story _ _ _ _ hnone _ _ _ hp hpassed with ⟨hq, htidy⟩
      have hmoved := (tidy_advanced hstory heval hat hq hframes).head
      -- The caller goes on behind its call, where it could have moved on to.
      have hreturn : Continuation.Storable ⟨f.id, f.node + 1, passed.refs⟩ :=
        ⟨hmoved.storable.node, htidy.refs⟩
      refine tidy_pushed hq (Frame.tidy_root (tidy_of_locals hstory htidy.values hlocals) ?_)
      intro d hd
      cases hd
      exact hreturn
  | tailCall hframes _ _ _ hpassed _ hc _ hlocals =>
      have hnone : Act.Passed.Tidy ⟨[], []⟩ := ⟨by simp, List.Pairwise.nil⟩
      rcases Act.tidies_passArguments story _ _ _ _ hnone _ _ _ hp hpassed with ⟨hq, htidy⟩
      rw [hframes] at hq
      refine tidy_pushed hq.tail (Frame.tidy_root (tidy_of_locals hstory htidy.values hlocals) ?_)
      -- The continuation of the frame that goes away is handed on.
      intro d hd
      cases hd
      exact hq.head.storable.continuation _ hc
  | @leaveScript _ _ root below _ hroot hsettle =>
      rcases Frames.currentRoot?_suffix hroot with ⟨-, hsuffix⟩
      have hkept : Frames.Tidy (root :: below) := hp.subset hsuffix.subset
      have hsettled := @tidy_settle story { p with frames := below } _ _ hkept.tail
        hkept.head.storable.scope.values hkept.head.storable.continuation
      rw [hsettle] at hsettled
      exact hsettled
  | transferAtBottom _ _ hvalues hlocals hroot _ =>
      rcases Act.tidies_transferArguments story _ _ _ _ (by simp) _ _ _ hp hvalues with
        ⟨hq, hfinite⟩
      rcases Frames.currentRoot?_suffix hroot with ⟨-, hsuffix⟩
      have hkept := hq.subset hsuffix.subset
      have hlocals' := tidy_of_locals hstory hfinite hlocals
      exact tidy_pushed hkept.tail (Frame.tidy_root hlocals' (by simp))
  | @transfer _ _ _ _ _ _ c _ root below after _ _ _ hvalues hlocals hroot hc hover =>
      rcases Act.tidies_transferArguments story _ _ _ _ (by simp) _ _ _ hp hvalues with
        ⟨hq, hfinite⟩
      rcases Frames.currentRoot?_suffix hroot with ⟨-, hsuffix⟩
      have hkept := hq.subset hsuffix.subset
      -- What is handed over to the frames below are variables of the script that goes away.
      have hafter : Frames.Tidy after := by
        unfold Frames.HandedOver at hover
        split at hover
        · have hback := @Frames.tidy_writeBack story _ root.scope c.refs hkept.tail
            hkept.head.storable.scope.values
          rw [hover] at hback
          exact hback
        · rw [hover]
          exact hkept.tail
      have hreturn := hkept.head.storable.continuation c hc
      refine tidy_pushed hafter (Frame.tidy_root (tidy_of_locals hstory hfinite hlocals) ?_)
      intro d hd
      cases hd
      exact ⟨hreturn.node, List.Pairwise.nil⟩
  | leave hbelow hgroup hloop =>
      -- The frame that owns the loop stands at it, so there is a node after it to move on to.
      have hkept := hp.subset (Frames.belowLoop?_suffix hbelow).subset
      rcases current?_of_isLoop hgroup hloop with ⟨node, hcurrent⟩
      exact hkept.tail.cons (hkept.head.advanced hstory hcurrent)
  | again hbelow _ _ => exact hp.subset (Frames.belowLoop?_suffix hbelow).subset

/-- A choice that opens shows no more items than it has options, so their places can be stored. -/
theorem Move.items {node : Node} {out : Option Output} {c : Pending}
    (h : Move story script p node out q) (hstory : story.Tidy) (hat : p.StandsAt story node)
    (hp : Frames.Tidy p.frames) (hpending : p.pending = none) (hc : q.pending = some c) :
    ∀ item ∈ c.items, item.index ≤ Json.maxSignificand := by
  obtain rfl : out = some c.output := h.kept.shown hpending hc
  cases h with
  | @choice _ _ _ options shown _ _ _ _ _ _ hoffered _ hitems _ _ =>
      have hoptions : options.length ≤ Json.maxSignificand := hstory.node hat
      have hshown := (Act.tidies_offered story _ _ _ _ _ hp hoffered).2
      rcases items_of_renderOptions hitems with ⟨-, hindices⟩
      -- The items are numbered from zero.
      intro item hitem
      have hindex : item.index ∈ List.range' 0 shown.length := by
        rw [← hindices]
        exact List.mem_map_of_mem hitem
      rcases List.mem_range'_1.1 hindex with ⟨-, hlt⟩
      omega

/-! ## Steps and answers -/

theorem Once.Marked.sorted {once once' : Once} (h : once.Marked story once')
    (honce : Dict.Sorted once) : Dict.Sorted once' := by
  rcases h with rfl | ⟨script, key, -, rfl⟩
  · exact honce
  · exact Dict.sorted_insert honce _ _

/-- A step leaves frames that can be stored. -/
theorem Step.tidy_frames {progress : Progress} (h : Step story p progress q) (hstory : story.Tidy)
    (hp : Frames.Tidy p.frames) : Frames.Tidy q.frames := by
  cases h with
  | concluded _ => exact hp
  | groupMissing _ _ => exact hp
  | @finished f _ _ _ _ _ _ hfinish =>
      have hq := @tidy_finishFrame story p f.id hp
      rw [hfinish] at hq
      exact hq
  | @finishFailed f _ _ _ _ _ _ _ hfinish =>
      have hq := @tidy_finishFrame story p f.id hp
      rw [hfinish] at hq
      exact hq
  | moved hframes hgroup hnode hmove =>
      exact hmove.tidy hstory (standsAt_of_group hframes hgroup hnode) hp
  | nodeFailed _ _ _ _ => exact hp

/-- The items of a choice that a step shows can be numbered. -/
theorem Step.items {progress : Progress} {c : Pending} (h : Step story p progress q)
    (hstory : story.Tidy) (hp : Frames.Tidy p.frames) (hpending : p.pending = none)
    (hc : q.pending = some c) : ∀ item ∈ c.items, item.index ≤ Json.maxSignificand := by
  -- Only a node shows a choice.
  have hshown : progress.output? = some c.output := h.kept.shown hpending hc
  cases h with
  | concluded _ => cases hshown
  | groupMissing _ _ => cases hshown
  | finished _ _ _ _ => cases hshown
  | finishFailed _ _ _ _ => cases hshown
  | moved hframes hgroup hnode hmove =>
      exact hmove.items hstory (standsAt_of_group hframes hgroup hnode) hp hpending hc
  | nodeFailed _ _ _ _ => cases hshown

/-- A step, whether or not it fails, leaves a state that can be stored. -/
theorem Step.tidy {progress : Progress} (h : Step story p progress q) (hstory : story.Tidy)
    (hp : p.Tidy) (hpending : p.pending = none) : q.Tidy := by
  refine ⟨h.tidy_frames hstory hp.frames, fun c hc => ?_, h.marked.sorted hp.once⟩
  exact h.items hstory hp.frames hpending hc

/-- An answer leaves a tidy state. -/
theorem Answer.tidy {index : Nat} (h : Answer story p index q) (hstory : story.Tidy)
    (hp : p.Tidy) : q.Tidy := by
  have honce : Dict.Sorted q.once := h.marked.sorted hp.once
  cases h with
  | @mk _ _ f _ found _ option _ _ hframe hgroup hoption _ =>
      refine ⟨?_, fun c hc => (by cases hc), honce⟩
      have hkept := hp.frames.subset (Frames.upTo?_suffix hframe).subset
      -- The frame stands at the node of the option that is chosen.
      have hcurrent : ∃ node, f.current? story = some node := by
        cases hnode : found.2.nodes[f.node]? with
        | none => simp [hnode, Act.optionFor?] at hoption
        | some node => exact ⟨node, (nodeAt?_of_group hgroup).trans hnode⟩
      rcases hcurrent with ⟨node, hcurrent⟩
      have hmoved := hkept.tail.cons (hkept.head.advanced hstory hcurrent)
      exact hmoved.cons (Frame.tidy_inner _ _).numbered

/-! ## Runs -/

/-- A story starts in a tidy state if its arguments are finite. -/
theorem begin_tidy {arguments : Dict Value} (hstory : story.Tidy)
    (harguments : ∀ entry ∈ arguments, entry.2.Finite)
    (h : Player.begin story script arguments = .ok p) : p.Tidy := by
  rcases begin_eq_ok h with ⟨callee, root, locals, -, -, hlocals, rfl⟩
  have htidy := tidy_of_locals hstory harguments hlocals
  refine ⟨?_, fun c hc => (by cases hc), List.Pairwise.nil⟩
  intro f hf
  rcases List.mem_singleton.1 hf with rfl
  exact (Frame.tidy_root htidy (by simp)).numbered

/-- Every state can be stored that is reached from the start of a script with finite arguments. -/
theorem play_tidy {arguments : Dict Value} (hstory : story.Tidy)
    (harguments : ∀ entry ∈ arguments, entry.2.Finite)
    (hbegin : Player.begin story script arguments = .ok p) (requests : List Request) :
    (p.play story requests).Tidy := by
  refine play_keeps requests (begin_tidy hstory harguments hbegin) ?_ ?_
  · exact fun p progress q hp hpending hstep => hstep.tidy hstory hp hpending
  · exact fun p index q hp hanswer => hanswer.tidy hstory hp

end StoryPlayer
