import StoryPlayer.Proofs.Origin

/-!
# The scripts that run

The stack of frames as a stack of scripts: for each script that runs the number of its frame, and
where it returns to.

- `Frames.scripts` is this view of a stack; it does not see cursors, variables and the groups inside
  of scripts,
- `Rescripted` lists what can become of the scripts that run: some of them end, the innermost frame
  calls another one, or the innermost script is replaced by another one that returns to the same
  place,
- `Step.rescripted` and `Answer.rescripted` show that there is nothing else.
-/

namespace StoryPlayer

/-! ## The view -/

namespace Frames

variable {fs gs : List Frame} {f root : Frame} {below : List Frame}

/-- The scripts that run, the innermost first: the numbers of their frames and where they return. -/
def scripts (frames : List Frame) : List (UInt64 × Option Continuation) :=
  (frames.filter Frame.root).map fun f => (f.id, f.continuation)

@[simp]
theorem scripts_nil : scripts [] = [] := rfl

/-- A frame in which a script has started adds this script to those below. -/
theorem scripts_of_root (h : f.root = true) :
    scripts (f :: below) = (f.id, f.continuation) :: scripts below := by
  simp [scripts, h]

/-- A frame inside of a script adds none. -/
theorem scripts_of_inner (h : f.root = false) : scripts (f :: below) = scripts below := by
  simp [scripts, h]

/-- There are as many running scripts as frames in which one has started. -/
theorem length_scripts (frames : List Frame) :
    (scripts frames).length = frames.countP Frame.root := by
  rw [scripts, List.length_map, List.countP_eq_length_filter]

/-- The cursor of a frame and its variables do not matter. -/
theorem scripts_congr {g : Frame} (hid : g.id = f.id) (hroot : g.root = f.root)
    (hc : g.continuation = f.continuation) : scripts (g :: below) = scripts (f :: below) := by
  cases h : f.root with
  | true => rw [scripts_of_root h, scripts_of_root (hroot.trans h), hid, hc]
  | false => rw [scripts_of_inner h, scripts_of_inner (hroot.trans h)]

/-- A frame that moves on is still that of the same script. -/
theorem scripts_advanced (f : Frame) (below : List Frame) :
    scripts (f.advanced :: below) = scripts (f :: below) :=
  scripts_congr rfl rfl rfl

/-- The values of variables do not matter. -/
theorem Revalued.scripts (h : Revalued fs gs) : Frames.scripts gs = Frames.scripts fs := by
  unfold Revalued at h
  induction h with
  | nil => rfl
  | @cons f g under below hhead _ ih =>
      calc Frames.scripts (g :: below) = Frames.scripts (f :: below) := by
            rw [hhead.same]
            exact scripts_congr rfl rfl rfl
        _ = Frames.scripts (f :: under) := by
            cases hroot : f.root with
            | true => rw [scripts_of_root hroot, scripts_of_root hroot, ih]
            | false => rw [scripts_of_inner hroot, scripts_of_inner hroot, ih]

theorem scripts_suffix (h : gs <:+ fs) : scripts gs <:+ scripts fs :=
  (h.filter _).map _

/-- The innermost running script is that of the nearest frame in which one has started. -/
theorem scripts_of_currentRoot? (h : currentRoot? fs = some (root, below)) :
    scripts fs = (root.id, root.continuation) :: scripts below := by
  induction fs with
  | nil => cases h
  | cons f rest ih =>
      by_cases hroot : f.root = true
      · simp only [currentRoot?, hroot, if_true] at h
        cases h
        exact scripts_of_root hroot
      · have hinner : f.root = false := by simpa using hroot
        simp only [currentRoot?, hinner] at h
        rw [scripts_of_inner hinner]
        exact ih h

/-- Without a frame in which a script has started no script runs. -/
theorem scripts_of_currentRoot?_none (h : currentRoot? fs = none) : scripts fs = [] := by
  induction fs with
  | nil => rfl
  | cons f rest ih =>
      by_cases hroot : f.root = true
      · simp [currentRoot?, hroot] at h
      · have hinner : f.root = false := by simpa using hroot
        simp only [currentRoot?, hinner] at h
        rw [scripts_of_inner hinner]
        exact ih h

end Frames

/-! ## What becomes of scripts -/

def Continuation.bare (c : Continuation) : Continuation :=
  { c with refs := [] }

open Frames (scripts Revalued)

/-- What can become of the scripts that run in a state. -/
inductive Rescripted (story : Story) (p q : Player) : Prop
  /-- Scripts end, if any. -/
  | dropped : scripts q.frames <:+ scripts p.frames → Rescripted story p q
  /-- The innermost frame calls a script, which returns behind the call. -/
  | called {f g lower : Frame} {below under : List Frame} {found : String × Group}
      {id target : String} {arguments : List Argument} {refs : Dict String} :
      p.frames = f :: below → story.group f.group = .ok found →
      found.2.nodes[f.node]? = some (.call id target arguments) →
      Act.isTailCall f found.2.nodes.length = false →
      q.frames = g :: lower :: under → Revalued (f :: below) (lower :: under) → g.root = true →
      g.continuation = some ⟨f.id, f.node + 1, refs⟩ →
      ((∀ argument ∈ arguments, argument.byRef = false) → refs = []) → Rescripted story p q
  /-- Another script takes the place of the innermost one. -/
  | replaced {id id' : UInt64} {c c' : Option Continuation}
      {rest : List (UInt64 × Option Continuation)} :
      scripts p.frames = (id, c) :: rest → scripts q.frames = (id', c') :: rest →
      c' = c ∨ c' = c.map Continuation.bare → Rescripted story p q

variable {story : Story} {script : String} {p q : Player}

/-- The scripts stay the same. -/
theorem Rescripted.same (h : scripts q.frames = scripts p.frames) : Rescripted story p q :=
  Rescripted.dropped (h ▸ List.suffix_refl _)

/-- Formulas are computed, and then the innermost frame moves on. -/
theorem Player.Evaluated.scripts_onward {f : Frame} {below : List Frame} (heval : p.Evaluated q)
    (hq : q.frames = f :: below) : scripts (f.advanced :: below) = scripts p.frames := by
  rw [Frames.scripts_advanced, ← hq, heval.frames.scripts]

/-- Arguments that are not passed by reference bind no references. -/
theorem ArgumentsPassed.refs_of_values {params : List Param} {arguments : List Argument}
    {passed passed' : Act.Passed} (h : ArgumentsPassed story params arguments passed p passed' q)
    (hvalues : ∀ argument ∈ arguments, argument.byRef = false) : passed'.refs = passed.refs := by
  induction h with
  | nil => rfl
  | cons hfirst _ ih =>
      rw [List.forall_mem_cons] at hvalues
      rw [ih hvalues.2]
      cases hfirst with
      | byRef _ href _ => simp [hvalues.1] at href
      | byValue _ _ _ => rfl

/-- A script that ends leaves the scripts below it. -/
theorem Settled.scripts {scope : Dict Value} {c : Option Continuation} {below : List Frame}
    {result : Except Fault Unit} (h : Settled story scope p c below result q) :
    Frames.scripts q.frames <:+ Frames.scripts below := by
  cases h with
  | concluded => exact List.nil_suffix
  | @back c lower lower' under under' hback =>
      have hrevalued := Frames.revalued_writeBack story scope c.refs (lower :: under)
      rw [hback] at hrevalued
      have hsame : Frames.scripts (lower'.advanced :: under') = Frames.scripts (lower :: under) :=
        (Frames.scripts_advanced lower' under').trans hrevalued.scripts
      exact hsame ▸ List.suffix_refl _
  | @failed c _ after fault hback =>
      have hrevalued := Frames.revalued_writeBack story scope c.refs below
      rw [hback] at hrevalued
      exact hrevalued.scripts ▸ List.suffix_refl _

/-- Running a node calls a script, leaves one, replaces one, or keeps those that run. -/
theorem Move.rescripted {node : Node} {out : Option Output} (h : Move story script p node out q)
    (hp : Frames.Stacked story p.counter p.frames) (hat : p.StandsAt story node) :
    Rescripted story p q := by
  cases h with
  -- Most nodes change values, move the cursor or push an inner frame, which is no root.
  | textUsed _ hframes => exact .same ((Player.Evaluated.refl p).scripts_onward hframes)
  | text _ hrender hframes =>
      exact .same (((Act.evaluates_render story _).ok hrender).scripts_onward hframes)
  | code hexecute hframes =>
      exact .same (((Act.evaluates_execute story _).ok hexecute).scripts_onward hframes)
  | declare hvalue hframes _ _ =>
      have hscripts := hvalue.evaluated.frames.scripts
      rw [hframes] at hscripts
      refine .same (Eq.trans ?_ hscripts)
      exact Frames.scripts_congr rfl rfl rfl
  | branchOver hcondition hframes =>
      exact .same (((Act.evaluates_condition story _).ok hcondition).scripts_onward hframes)
  | branchInto hcondition hframes _ _ =>
      have heval := (Act.evaluates_condition story _).ok hcondition
      exact .same ((Frames.scripts_of_inner rfl).trans (heval.scripts_onward hframes))
  | loopOver hcondition hframes =>
      exact .same (((Act.evaluates_condition story _).ok hcondition).scripts_onward hframes)
  | loopInto hcondition _ =>
      have heval := (Act.evaluates_condition story _).ok hcondition
      exact .same ((Frames.scripts_of_inner rfl).trans heval.frames.scripts)
  | choiceOver hoffered hframes =>
      exact .same (((Act.evaluates_offered story _ _).ok hoffered).scripts_onward hframes)
  | choice hoffered _ hitems hprompt _ =>
      exact .same (evaluated_of_choice hoffered hitems hprompt).frames.scripts
  | @call id target arguments _ passed _ r f below caller _ hframes hgroup _ _ hpassed htail _ =>
      have heval := (Act.evaluates_passArguments story _ _ _ _ _).ok hpassed
      -- The caller stands at the call before its arguments are computed, and after.
      rcases heval.cons hframes with ⟨g, under, hg, hhead, hunder⟩
      have hgroup' : story.group g.group = .ok caller := by rw [← hgroup, hhead.same]
      rcases hat with ⟨top, rest, htop, hnode⟩
      rcases List.cons.inj (hg.symm.trans htop) with ⟨rfl, rfl⟩
      have hplace : caller.2.nodes[g.node]? = some (.call id target arguments) :=
        (nodeAt?_of_group hgroup').symm.trans hnode
      have hnotail : Act.isTailCall g caller.2.nodes.length = false := by
        rw [← isTailCall_congr hhead]
        exact htail
      have hback : some (Continuation.mk f.id (f.node + 1) passed.refs) =
          some ⟨g.id, g.node + 1, passed.refs⟩ := by rw [hhead.same]
      exact Rescripted.called hg hgroup' hplace hnotail (congrArg _ hframes)
        (List.Forall₂.cons hhead hunder) rfl hback
        (argumentsPassed_of_passArguments hpassed).refs_of_values
  -- A call in tail position puts a root in the place of the caller's, with the same continuation.
  | tailCall hframes _ _ _ hpassed hroot hc _ _ =>
      have heval := (Act.evaluates_passArguments story _ _ _ _ _).ok hpassed
      have hscripts := heval.frames.scripts
      rw [hframes, Frames.scripts_of_root hroot] at hscripts
      exact Rescripted.replaced hscripts.symm (Frames.scripts_of_root rfl) (Or.inl hc.symm)
  | leaveScript hroot hsettle =>
      rcases Frames.currentRoot?_suffix hroot with ⟨his, hsuffix⟩
      have hsettled := settled_of_settle (hp.suffix hsuffix) his rfl hsettle
      refine Rescripted.dropped (hsettled.scripts.trans ?_)
      rw [Frames.scripts_of_currentRoot? hroot]
      exact List.suffix_cons _ _
  | transferAtBottom _ _ hvalues _ hroot hc =>
      have heval := (Act.evaluates_transferArguments story _ _ _ _ _).ok hvalues
      have hscripts := heval.frames.scripts
      rw [Frames.scripts_of_currentRoot? hroot] at hscripts
      exact Rescripted.replaced hscripts.symm (Frames.scripts_of_root rfl) (Or.inl hc.symm)
  | @transfer _ _ _ _ _ _ c r root below after _ _ _ hvalues _ hroot hc hover =>
      have heval := (Act.evaluates_transferArguments story _ _ _ _ _).ok hvalues
      have hscripts := heval.frames.scripts
      rw [Frames.scripts_of_currentRoot? hroot, ← hover.revalued.scripts] at hscripts
      refine Rescripted.replaced hscripts.symm (Frames.scripts_of_root rfl) (Or.inr ?_)
      rw [hc]
      rfl
  -- A loop is left by dropping frames; the scripts that still run are a part of the former ones.
  | @leave _ owner below _ hbelow _ _ =>
      have hsuffix := Frames.scripts_suffix (Frames.belowLoop?_suffix hbelow)
      rw [← Frames.scripts_advanced] at hsuffix
      exact Rescripted.dropped hsuffix
  | again hbelow _ _ =>
      exact Rescripted.dropped (Frames.scripts_suffix (Frames.belowLoop?_suffix hbelow))

/-- The end of a group is at most the end of one script. -/
theorem finishFrame_rescripted {f : Frame} {below : List Frame} {result : Except Fault Unit}
    (hstack : Frames.Stacked story p.counter p.frames) (hp : p.frames = f :: below)
    (h : p.finishFrame story f.id = (result, q)) : Rescripted story p q := by
  have hbelow : Frames.scripts below <:+ Frames.scripts p.frames :=
    hp ▸ Frames.scripts_suffix (List.suffix_cons f below)
  rw [hp] at hstack
  rw [finishFrame_top hstack hp] at h
  by_cases hroot : f.root = true
  · rw [if_pos hroot] at h
    exact Rescripted.dropped ((settled_of_settle hstack hroot rfl h).scripts.trans hbelow)
  · rw [if_neg hroot] at h
    cases h
    exact Rescripted.dropped hbelow

/-- A step changes the running scripts in one of the ways of `Rescripted`. -/
theorem Step.rescripted {progress : Progress} (h : Step story p progress q)
    (hp : Frames.Stacked story p.counter p.frames) : Rescripted story p q := by
  cases h with
  | concluded _ => exact .same rfl
  | groupMissing _ _ => exact .same rfl
  | finished hframes _ _ hfinish => exact finishFrame_rescripted hp hframes hfinish
  | finishFailed hframes _ _ hfinish => exact finishFrame_rescripted hp hframes hfinish
  | moved hframes hgroup hnode hmove =>
      exact hmove.rescripted hp (standsAt_of_group hframes hgroup hnode)
  | nodeFailed _ _ _ _ => exact .same rfl

/-- An answer starts no script and ends none. -/
theorem Answer.rescripted {index : Nat} (h : Answer story p index q) (hp : p.WellFormed story) :
    Rescripted story p q := by
  cases h with
  | @mk c _ f below _ _ _ hpending _ hframe _ _ _ =>
      rcases upTo?_pending hp hpending with ⟨top, under, hframes, htop⟩
      rcases Prod.mk.inj (Option.some.inj (htop.symm.trans hframe)) with ⟨rfl, rfl⟩
      refine .same ?_
      rw [hframes]
      exact (Frames.scripts_of_inner rfl).trans (Frames.scripts_advanced top under)

end StoryPlayer
