import StoryPlayer.Proofs.Retelling

/-!
# Tellings that stop

- `told_of_failure` shows that a telling stops where a node fails, with the same fault,
- `retold_of_dispatch` concludes that every step is told, as long as there is fuel and no script is
  called or left.
-/

namespace StoryPlayer

variable {story : Story} {p q : Player}

/-! ## Nodes that fail -/

section Failures

variable {levels : List Level} {fuel : Nat} {picks : List Nat} {log : List Event} {f : Frame}
  {below : List Frame} {found : String × Group} {node : Node} {script : String}
  {onward again : Walk Flow} {failure : Failure}
  {tell : String → String → Nat → List Node → Walk Flow}

/-- A telling stops where a text fails, and tells the fault. -/
theorem tellText_failed {id value : String} {once : Bool} (hframes : p.frames = f :: below)
    (h : Act.showText story script id value once p = .error failure) :
    tellText story script id value once onward (p.world picks log) =
      .error (log ++ failure.fault.told) := by
  rcases Act.bind_eq_error.1 h with hget | ⟨_, _, hget, hrest⟩
  · cases hget
  rcases Act.get_eq_ok.1 hget with ⟨rfl, rfl⟩
  by_cases hfired : (once && p.once.fired script (Once.textKey id)) = true
  · rw [if_pos hfired] at hrest
    rcases Act.bind_eq_error.1 hrest with hadvance | ⟨_, _, -, hpure⟩
    · exact absurd hadvance (Act.advance_ne_error hframes)
    · cases hpure
  · rw [if_neg hfired] at hrest
    rcases Act.bind_eq_error.1 hrest with hrender | ⟨_, r, hrender, hrest⟩
    · change (if (once && p.once.fired script (Once.textKey id)) = true then _ else _ :
        Walk Flow) _ = _
      rw [if_neg hfired, Walk.error_bind (compute_error (blind_render story value) hrender)]
    · rcases ((Act.evaluates_render story _).ok hrender).top hframes with ⟨g, under, hr, -⟩
      rcases Act.bind_eq_error.1 hrest with hadvance | ⟨_, _, -, hlast⟩
      · exact absurd hadvance (Act.advance_ne_error hr)
      · cases once <;> cases hlast

/-- So it does where a branch fails. -/
theorem tellBranch_failed {source yes : String} {no : Option String}
    (hframes : p.frames = f :: below) (h : Act.branch story source yes no p = .error failure) :
    tellBranch story (tellGroup story tell) onward source yes no (p.world picks log) =
      .error (log ++ failure.fault.told) := by
  rcases Act.bind_eq_error.1 h with hcondition | ⟨holds, r, hcondition, hrest⟩
  · rw [tellBranch, Walk.error_bind (compute_error (blind_condition story source) hcondition)]
  · rcases ((Act.evaluates_condition story _).ok hcondition).top hframes with ⟨g, under, hr, -⟩
    rw [tellBranch_eq hcondition]
    cases htarget : (if holds then some yes else no) with
    | none =>
        rw [htarget] at hrest
        exact absurd hrest (Act.advance_ne_error hr)
    | some group =>
        rw [htarget] at hrest
        exact Walk.error_bind (tellGroup_missing (Act.enter_eq_error hr hrest))

/-- So it does where a loop fails. -/
theorem tellLoop_failed {source body : String} (hframes : p.frames = f :: below)
    (h : Act.loop story source body p = .error failure) :
    tellLoop story (tellGroup story tell) onward again source body (p.world picks log) =
      .error (log ++ failure.fault.told) := by
  rcases Act.bind_eq_error.1 h with hcondition | ⟨holds, r, hcondition, hrest⟩
  · rw [tellLoop, Walk.error_bind (compute_error (blind_condition story source) hcondition)]
  · rcases ((Act.evaluates_condition story _).ok hcondition).top hframes with ⟨g, under, hr, -⟩
    rw [tellLoop_eq hcondition]
    cases holds with
    | false => exact absurd hrest (Act.advance_ne_error hr)
    | true => exact Walk.error_bind (tellGroup_missing (Act.enter_eq_error hr hrest))

/-- So it does where a choice fails. -/
theorem tellChoice_failed {id : String} {prompt : Option String} {options : List ChoiceOption}
    {enter : String → Walk Flow} (hframes : p.frames = f :: below)
    (h : Act.offer story script id prompt options p = .error failure) :
    tellChoice story enter onward script prompt options (p.world picks log) =
      .error (log ++ failure.fault.told) := by
  unfold tellChoice
  rcases Act.bind_eq_error.1 h with hoffered | ⟨shown, r, hoffered, hrest⟩
  · rw [Walk.error_bind (compute_error (blind_offered story script options) hoffered)]
  have hfirst := (Act.evaluates_offered story _ _).ok hoffered
  rw [Walk.ok_bind (compute_ok (blind_offered story script options) hoffered)]
  by_cases hempty : shown.isEmpty = true
  · rcases hfirst.top hframes with ⟨g, under, hr, -⟩
    rw [if_pos hempty] at hrest
    rcases Act.bind_eq_error.1 hrest with hadvance | ⟨_, _, -, hpure⟩
    · exact absurd hadvance (Act.advance_ne_error hr)
    · cases hpure
  rw [if_neg hempty] at hrest ⊢
  rcases Act.bind_eq_error.1 hrest with hitems | ⟨items, s, hitems, hrest⟩
  · rw [Walk.error_bind (compute_error (blind_renderOptions story 0 shown) hitems)]
  rw [Walk.ok_bind (compute_ok (blind_renderOptions story 0 shown) hitems)]
  rcases Act.bind_eq_error.1 hrest with hprompt | ⟨text, t, hprompt, hrest⟩
  · rw [Walk.error_bind (compute_error (blind_renderOptional story prompt) hprompt)]
  -- All texts are there, and a frame to which the choice belongs.
  rcases (evaluated_of_choice hoffered hitems hprompt).top hframes with ⟨g, under, ht, -⟩
  rcases Act.bind_eq_error.1 hrest with htop | ⟨_, _, -, hlast⟩
  · exact absurd htop (Act.top_ne_error ht)
  · cases hlast

/-- A loop is not found where there is none. -/
theorem told_of_backToLoop {flow : Flow} {keyword : String}
    (hflow : flow ≠ .onward) (htold : flow.told = (Fault.outsideLoop keyword).told)
    (hstack : Frames.Stacked story p.counter p.frames) (hframes : p.frames = f :: below)
    (htracked : Frames.Tracked p.frames ((f.place, fuel) :: levels))
    (h : Act.backToLoop story keyword p = .error failure) :
    tellBelow story f.place.body levels flow (p.world picks log).dropBlock =
      log ++ failure.fault.told := by
  rcases Act.bind_eq_error.1 h with hget | ⟨_, _, hget, hrest⟩
  · cases hget
  rcases Act.get_eq_ok.1 hget with ⟨rfl, rfl⟩
  rw [hframes] at hstack htracked
  -- A loop that catches the keyword leaves no fault; otherwise the script ends with one.
  cases unwound_of_tracked hflow hstack htracked hframes with
  | caught hbelow hgroup hloop _ _ _ =>
      simp only [hbelow] at hrest
      rcases Act.bind_eq_error.1 hrest with hlift | ⟨_, _, hlift, hset⟩
      · rcases Act.liftM_eq_error.1 hlift with ⟨fault, hmissing, -⟩
        simp [hgroup] at hmissing
      · rcases Act.liftM_eq_ok.1 hlift with ⟨hfound, rfl⟩
        obtain rfl := Except.ok.inj (hgroup.symm.trans hfound)
        rw [if_pos hloop] at hset
        cases hset
  | outside hnone hresume =>
      have hfault : failure.fault = .outsideLoop keyword := by
        cases hbelow : Act.belowLoop? p.frames with
        | none =>
            rw [hbelow] at hrest
            rw [Act.fail_eq_error.1 hrest]
        | some under =>
            cases under with
            | nil =>
                rw [hbelow] at hrest
                rw [Act.fail_eq_error.1 hrest]
            | cons owner under => exact absurd hbelow (hnone owner under)
      rw [hresume, htold, hfault]

/-- A node that fails is told. -/
theorem told_of_failure (hjump : node.isJump = false)
    (hstack : Frames.Stacked story p.counter p.frames) (hframes : p.frames = f :: below)
    (hgroup : story.group f.group = .ok found) (hnode : found.2.nodes[f.node]? = some node)
    (htracked : Frames.Tracked p.frames ((f.place, fuel + 1) :: levels))
    (h : Act.runNode story found.1 f.group f.node node p = .error failure) :
    p.rest story ((f.place, fuel + 1) :: levels) picks log = log ++ failure.fault.told := by
  -- The nodes that fail in a formula stop the telling of their group.
  have hstop : ∀ {walk : Walk Flow},
      walk (p.world picks log) = .error (log ++ failure.fault.told) →
      proceed story f.place.body levels (walk (p.world picks log)) =
        log ++ failure.fault.told := by
    intro walk hwalk
    rw [hwalk]
    rfl
  -- What a node runs before it shows that nothing is to be shown fails by itself.
  have hquiet : ∀ {act : Act Unit}, (do act; return none : Act (Option Output)) p =
      .error failure → act p = .error failure := by
    intro act hact
    rcases Act.bind_eq_error.1 hact with hfail | ⟨_, _, -, hpure⟩
    · exact hfail
    · cases hpure
  rw [rest_of_node hgroup hnode]
  cases node with
  | text id value once => exact hstop (tellText_failed hframes h)
  | code id source =>
      refine hstop (Walk.error_bind (compute_error (blind_execute story source) ?_))
      refine Act.thenAdvance_eq_error (fun _ q hexecute => ?_) h
      rcases ((Act.evaluates_execute story source).ok hexecute).top hframes with ⟨g, under, hq, -⟩
      exact ⟨g, under, hq⟩
  | declare id d =>
      refine hstop (Walk.error_bind (compute_error (blind_declare story d) ?_))
      refine Act.thenAdvance_eq_error (fun _ q hdeclare => ?_) h
      rcases declare_eq_ok hdeclare with ⟨_, _, _, _, -, -, -, -, rfl⟩
      exact ⟨_, _, rfl⟩
  | branch id source yes no => exact hstop (tellBranch_failed hframes (hquiet h))
  | loop id source body => exact hstop (tellLoop_failed hframes (hquiet h))
  | choice id prompt options => exact hstop (tellChoice_failed hframes h)
  | call id target arguments => cases hjump
  | finish id target arguments => cases hjump
  | leave id =>
      refine told_of_backToLoop (by decide) rfl hstack hframes htracked
        (Act.thenAdvance_eq_error (fun _ q hback => ?_) h)
      rcases Act.backToLoop_eq_ok hback with ⟨owner, under, -, -, -, -, rfl⟩
      exact ⟨owner, under, rfl⟩
  | again id => exact told_of_backToLoop (by decide) rfl hstack hframes htracked (hquiet h)
  | unknown =>
      rcases Act.fail_eq_error.1 h with rfl
      rfl

end Failures

/-! ## Steps -/

section Steps

variable {levels : List Level} {fuel : Nat} {picks : List Nat} {log : List Event} {f : Frame}
  {below : List Frame} {found : String × Group}

/-- If a group comes to its end, it does not matter whether it was the body of a loop. -/
theorem tellBelow_onward_body (body : Bool) (w : World) :
    tellBelow story body levels .onward w = tellBelow story false levels .onward w := by
  cases levels <;> rfl

/-- Without fuel nothing more is told. -/
theorem rest_of_starved {node : Node} (hgroup : story.group f.group = .ok found)
    (hnode : found.2.nodes[f.node]? = some node) :
    p.rest story ((f.place, 0) :: levels) picks log = log := by
  rw [rest_of_node hgroup hnode]
  exact List.append_nil log

/-- The end of a group is told. -/
theorem continues_of_finished (hp : p.WellFormed story) (hframes : p.frames = f :: below)
    (hgroup : story.group f.group = .ok found) (hnode : found.2.nodes[f.node]? = none)
    (htracked : Frames.Tracked p.frames ((f.place, fuel) :: levels)) :
    ∃ q, p.finishFrame story f.id = (.ok (), q) ∧
      Continues story ((f.place, fuel) :: levels)
        (p.rest story ((f.place, fuel) :: levels) picks log) q picks log := by
  have hstack := hp.stacked
  rw [hframes] at hstack htracked
  rcases List.forall₂_cons.1 htracked with ⟨⟨-, hown⟩, hbelow⟩
  -- The variables of the group go, and the group below goes on.
  have hrest : p.rest story ((f.place, fuel) :: levels) picks log =
      tellBelow story false levels .onward (p.world picks log).dropBlock := by
    have hnil : found.2.nodes.drop f.node = [] :=
      List.drop_eq_nil_of_le (List.getElem?_eq_none_iff.1 hnode)
    rw [Player.rest, tellBelow_onward f.place hgroup, ← tellBelow_onward_body f.place.body]
    change proceed _ _ _ (tellNodes _ _ _ _ _ (found.2.nodes.drop f.node) _) = _
    rw [hnil]
    cases fuel <;> rfl
  have hdrop : (p.world picks log).dropBlock =
      Player.world { p with frames := below } picks log := by
    simp only [Player.world, World.dropBlock, hframes]
    rfl
  rw [finishFrame_top hstack hframes]
  by_cases hroot : f.root = true
  · -- The script has no caller, so no frame is left.
    obtain rfl := hstack.nil_of_no_continuation hroot hown
    rw [if_pos hroot, hown]
    refine ⟨_, rfl, levels, hbelow, Spent.suffix (List.suffix_refl _), ?_⟩
    rw [hrest, hdrop]
    rfl
  · rw [if_neg hroot]
    refine ⟨_, rfl, levels, hbelow, Spent.suffix (List.suffix_refl _), ?_⟩
    rw [hrest, hdrop]
    rfl

/-- Every step that calls no script and leaves none is told, unless the fuel has run out. -/
theorem retold_of_dispatch (picks : List Nat) (log : List Event) {progress : Progress}
    (h : p.dispatch story = (progress, q)) (hp : p.WellFormed story) (hq : q.WellFormed story)
    (hdistinct : story.DistinctOptions)
    (hjump : ∀ node, p.StandsAt story node → node.isJump = false)
    (htracked : Frames.Tracked p.frames levels) :
    (p.rest story levels picks log = log ∧ ∃ level ∈ levels, level.2 = 0) ∨
      Retold story levels (p.rest story levels picks log) picks log progress q := by
  have hlevel : ∀ {f below}, p.frames = f :: below →
      ∃ fuel lower, levels = (f.place, fuel) :: lower := by
    intro f below hframes
    rw [hframes] at htracked
    exact htracked.exists_level
  cases step_of_dispatch h with
  | concluded hframes =>
      rw [hframes] at htracked
      cases htracked
      exact Or.inr rfl
  -- The groups of frames exist.
  | @groupMissing f _ _ hframes hgroup =>
      rcases hp.stacked.placed f (hframes ▸ List.mem_cons_self) with ⟨script, group, hfound, -⟩
      simp [hgroup] at hfound
  | finished hframes hgroup hnode hfinish =>
      rcases hlevel hframes with ⟨fuel, lower, rfl⟩
      rcases continues_of_finished hp hframes hgroup hnode htracked with ⟨r, hr, hcontinues⟩
      obtain rfl : r = q := (Prod.mk.inj (hr.symm.trans hfinish)).2
      exact Or.inr hcontinues
  | finishFailed hframes hgroup hnode hfinish =>
      rcases hlevel hframes with ⟨fuel, lower, rfl⟩
      obtain ⟨r, hr, -⟩ := @continues_of_finished story p lower fuel picks log _ _ _ hp hframes
        hgroup hnode htracked
      cases hr.symm.trans hfinish
  | moved hframes hgroup hnode hmove =>
      rcases hlevel hframes with ⟨fuel, lower, rfl⟩
      -- Without fuel the telling has stopped here.
      cases fuel with
      | zero => exact Or.inl ⟨rest_of_starved hgroup hnode, _, List.mem_cons_self, rfl⟩
      | succ fuel =>
          have hkind := hjump _ (standsAt_of_group hframes hgroup hnode)
          exact Or.inr (retold_of_move hmove hkind hdistinct hp.stacked hq hframes hgroup hnode
            htracked)
  | nodeFailed hframes hgroup hnode hfail =>
      rcases hlevel hframes with ⟨fuel, lower, rfl⟩
      cases fuel with
      | zero => exact Or.inl ⟨rest_of_starved hgroup hnode, _, List.mem_cons_self, rfl⟩
      | succ fuel =>
          have hkind := hjump _ (standsAt_of_group hframes hgroup hnode)
          exact Or.inr (told_of_failure hkind hp.stacked hframes hgroup hnode htracked hfail)

end Steps

end StoryPlayer
