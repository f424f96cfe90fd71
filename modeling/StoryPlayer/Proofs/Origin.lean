import StoryPlayer.Proofs.WellFormed

/-!
# Where frames come from

Every frame of the state after a step was there before, or it is the one that the step has pushed.

- `Frame.Inherits` relates a frame to what becomes of it: cursor and variables may differ, but
  variables do not disappear,
- `Origin` lists where a frame can come from, with what a new frame is given to start with,
- `Step.origin` and `Answer.origin` show that there is nothing else.

None of this depends on the shape of the stack or on the numbers of frames.
-/

namespace StoryPlayer

/-! ## Frames that stay -/

/-- The frame `g` is what has become of the frame `f`. -/
structure Frame.Inherits (f g : Frame) : Prop where
  id : g.id = f.id
  root : g.root = f.root
  continuation : g.continuation = f.continuation
  names : ∀ name, Dict.contains f.scope name = true → Dict.contains g.scope name = true
  typed : f.Typed → g.Typed

theorem Frame.Inherits.refl (f : Frame) : f.Inherits f :=
  ⟨rfl, rfl, rfl, fun _ h => h, fun h => h⟩

/-- Inheriting goes on through further states. -/
theorem Frame.Inherits.trans {f g h : Frame} (hfg : f.Inherits g) (hgh : g.Inherits h) :
    f.Inherits h where
  id := hgh.id.trans hfg.id
  root := hgh.root.trans hfg.root
  continuation := hgh.continuation.trans hfg.continuation
  names := fun name hname => hgh.names name (hfg.names name hname)
  typed := fun hf => hgh.typed (hfg.typed hf)

/-- The cursor may move. -/
theorem Frame.inherits_moved (f : Frame) (node : Nat) : f.Inherits { f with node } :=
  ⟨rfl, rfl, rfl, fun _ h => h, fun h => h⟩

theorem Frame.Revalued.inherits {f g : Frame} (h : f.Revalued g) : f.Inherits g where
  id := by rw [h.same]
  root := by rw [h.same]
  continuation := by rw [h.same]
  names := fun name hname => by rw [h.names, hname]
  typed := h.typed

/-- A variable may be declared. -/
theorem Frame.inherits_declared {f : Frame} {name : String} {type : ScriptType} {value : Value}
    (hname : Dict.contains f.scope name = false) (hfits : Value.fits type value = true) :
    f.Inherits { f with
      scope := Dict.insert f.scope name value
      types := Dict.insert f.types name type } where
  id := rfl
  root := rfl
  continuation := rfl
  names := by
    intro other hother
    simp [Dict.contains_insert, hother]
  typed := by
    intro hf entry hentry
    rcases Dict.mem_of_mem_insert hentry with rfl | hold
    · exact ⟨type, by simp [Dict.get?_insert], hfits⟩
    · -- An older variable has another name, so its type is still there.
      rcases hf entry hold with ⟨old, hget, hold'⟩
      have hother : name ≠ entry.1 := by
        rintro rfl
        have hkey : entry.1 ∈ Dict.keys f.scope := List.mem_map_of_mem hold
        rw [← Dict.contains_iff_mem_keys, hname] at hkey
        cases hkey
      exact ⟨old, by simp [Dict.get?_insert, hother, hget], hold'⟩

/-- Every frame of the second stack is what has become of a frame of the first. -/
def Frames.Inherited (fs gs : List Frame) : Prop :=
  ∀ g ∈ gs, ∃ f ∈ fs, f.Inherits g

namespace Frames.Inherited

variable {fs gs hs : List Frame} {f g : Frame}

theorem of_subset (h : gs ⊆ fs) : Inherited fs gs :=
  fun g hg => ⟨g, h hg, Frame.Inherits.refl g⟩

theorem trans (hfg : Inherited fs gs) (hgh : Inherited gs hs) : Inherited fs hs := by
  intro h hh
  rcases hgh h hh with ⟨g, hg, hinherits⟩
  rcases hfg g hg with ⟨f, hf, hinherits'⟩
  exact ⟨f, hf, hinherits'.trans hinherits⟩

/-- The innermost frame may change. -/
theorem cons (h : Inherited fs (f :: gs)) (hg : f.Inherits g) : Inherited fs (g :: gs) := by
  intro frame hframe
  rcases List.mem_cons.1 hframe with rfl | hframe
  · rcases h f List.mem_cons_self with ⟨first, hfirst, hinherits⟩
    exact ⟨first, hfirst, hinherits.trans hg⟩
  · exact h frame (List.mem_cons_of_mem _ hframe)

/-- Frames with new values inherit from the old ones. -/
theorem of_revalued (h : Revalued fs gs) : Inherited fs gs := by
  unfold Revalued at h
  induction h with
  | nil => exact of_subset (List.Subset.refl [])
  | @cons f g fs gs hhead _ ih =>
      intro frame hframe
      rcases List.mem_cons.1 hframe with rfl | hframe
      · exact ⟨f, List.mem_cons_self, hhead.inherits⟩
      · rcases ih frame hframe with ⟨first, hfirst, hinherits⟩
        exact ⟨first, List.mem_cons_of_mem _ hfirst, hinherits⟩

/-- A frame that is moved inherits from itself. -/
theorem of_moveTo (id : UInt64) (node : Nat) (fs : List Frame) :
    Inherited fs (moveTo id node fs) := by
  induction fs with
  | nil => exact of_subset (List.Subset.refl [])
  | cons f below ih =>
      simp only [moveTo]
      split
      · intro frame hframe
        rcases List.mem_cons.1 hframe with rfl | hframe
        · exact ⟨frame, List.mem_cons_self, Frame.Inherits.refl frame⟩
        · rcases ih frame hframe with ⟨first, hfirst, hinherits⟩
          exact ⟨first, List.mem_cons_of_mem _ hfirst, hinherits⟩
      · split
        · exact (of_subset (List.Subset.refl _)).cons (Frame.inherits_moved f node)
        · exact of_subset (List.Subset.refl _)

end Frames.Inherited

namespace Frames

variable {fs : List Frame}

/-- The frame that is found and those below it are the lower end of the stack. -/
theorem upTo?_suffix {id : UInt64} {f : Frame} {below : List Frame}
    (h : upTo? id fs = some (f, below)) : f :: below <:+ fs := by
  induction fs with
  | nil => cases h
  | cons first rest ih =>
      simp only [upTo?] at h
      split at h
      · next found hrest =>
        rw [h] at hrest
        exact (ih hrest).trans (List.suffix_cons first rest)
      · split at h
        · cases h
          exact List.suffix_refl _
        · cases h

end Frames

/-- A script that ends leaves no new frames, whether or not its caller can go on. -/
theorem settle_inherited (story : Story) (scope : Dict Value) (c : Option Continuation)
    (p : Player) : Frames.Inherited p.frames (p.settle story scope c).2.frames := by
  have hnone : Frames.Inherited p.frames [] := fun g hg => by cases hg
  unfold Player.settle
  cases c with
  | none => exact hnone
  | some c =>
      by_cases hhas : Frames.has p.frames c.frame = true
      · simp only [hhas, if_true]
        have hback := Frames.Inherited.of_revalued
          (Frames.revalued_writeBack story scope c.refs p.frames)
        cases h : Frames.writeBack story scope c.refs p.frames with
        | mk result frames =>
            rw [h] at hback
            cases result with
            | ok _ => exact hback.trans (Frames.Inherited.of_moveTo _ _ _)
            | error fault => exact hback
      · simp only [hhas]
        exact hnone

/-- The end of a group adds no frame. -/
theorem finishFrame_inherited (story : Story) (id : UInt64) (p : Player) :
    Frames.Inherited p.frames (p.finishFrame story id).2.frames := by
  unfold Player.finishFrame
  split
  · exact Frames.Inherited.of_subset (List.Subset.refl _)
  · next found others htake =>
    have hothers := Frames.Inherited.of_subset (Frames.takeOut?_subset htake)
    split
    · exact hothers.trans (settle_inherited story _ _ { p with frames := others })
    · exact hothers

/-! ## Frames that are new -/

def Node.target? : Node → Option String
  | .call _ target _ => some target
  | .finish _ target _ => target
  | _ => none

/-- The parameter with the name is passed by reference. -/
def Script.takesRef (s : Script) (name : String) : Bool :=
  s.params.any fun param => param.name == name && param.byRef

/-- What a script that is started by a node is given to return to. -/
inductive HandedOn (story : Story) (p : Player) (callee : Script) :
    Node → Option Continuation → Prop
  | bottom {node : Node} : HandedOn story p callee node none
  /-- Every reference belongs to a parameter of the script. -/
  | bound {node : Node} {c : Continuation} :
      (∀ key ∈ Dict.keys c.refs, callee.takesRef key = true) →
      HandedOn story p callee node (some c)
  /-- The script takes the place of its caller, with what that one was given. -/
  | tail {id target : String} {arguments : List Argument} {f : Frame} {below : List Frame}
      {found : String × Group} {c : Continuation} :
      p.frames = f :: below → story.group f.group = .ok found →
      Act.isTailCall f found.2.nodes.length = true → f.continuation = some c →
      HandedOn story p callee (.call id target arguments) (some c)

/-- Where a frame can come from when a node has been run. -/
inductive Origin (story : Story) (p : Player) (node : Node) (g : Frame) : Prop
  | kept {f : Frame} : f ∈ p.frames → f.Inherits g → Origin story p node g
  | entered : g.id = p.counter → g.root = false → g.scope = [] → Origin story p node g
  | started {target : String} {callee : Script} {values : Dict Value} {locals : Locals}
      {c : Option Continuation} :
      node.target? = some target → Dict.get? story.scripts target = some callee →
      story.locals target values = .ok locals → HandedOn story p callee node c →
      g = { Player.rootFrame callee.root locals c with id := p.counter } →
      Origin story p node g

variable {story : Story} {script : String} {p q : Player}

/-- Frames that were there before formulas were computed, and frames below them. -/
theorem inherited_of_evaluated {gs : List Frame} (heval : p.Evaluated q) (h : gs <:+ q.frames) :
    Frames.Inherited p.frames gs :=
  (Frames.Inherited.of_revalued heval.frames).trans (Frames.Inherited.of_subset h.subset)

/-- Formulas are computed and the innermost frame moves on; no frame is new. -/
theorem inherited_advanced {f : Frame} {below : List Frame} (heval : p.Evaluated q)
    (hq : q.frames = f :: below) : Frames.Inherited p.frames (f.advanced :: below) :=
  (inherited_of_evaluated heval (hq ▸ List.suffix_refl _)).cons (Frame.inherits_moved f _)

inductive ArgumentPassed (story : Story) (param : Param) (argument : Argument)
    (passed : Act.Passed) (p : Player) : Act.Passed → Player → Prop
  | byRef {value : Value} :
      param.byRef = true → argument.byRef = true →
      Frames.readRef story p.frames argument.source = .ok value →
      ArgumentPassed story param argument passed p
        ⟨Dict.insert passed.values param.name value,
          Dict.insert passed.refs param.name argument.source⟩ p
  | byValue {value : Value} {q : Player} :
      param.byRef = false → argument.byRef = false →
      Act.evaluate story argument.source p = .ok (value, q) →
      ArgumentPassed story param argument passed p
        { passed with values := Dict.insert passed.values param.name value } q

/-- An argument is passed as its parameter takes it. -/
theorem argumentPassed_of_passArgument {param : Param} {argument : Argument}
    {passed passed' : Act.Passed}
    (h : Act.passArgument story script param argument passed p = .ok (passed', q)) :
    ArgumentPassed story param argument passed p passed' q := by
  unfold Act.passArgument at h
  by_cases hmode : (param.byRef != argument.byRef) = true
  · rw [if_pos hmode] at h
    exact (Act.fail_eq_ok.1 h).elim
  · have hsame : param.byRef = argument.byRef := by simpa using hmode
    rw [if_neg hmode] at h
    cases href : argument.byRef with
    | true =>
        rw [if_pos href] at h
        rcases Act.bind_eq_ok.1 h with ⟨_, _, hget, hrest⟩
        rcases Act.get_eq_ok.1 hget with ⟨rfl, rfl⟩
        rcases Act.bind_eq_ok.1 hrest with ⟨value, _, hlift, hreturn⟩
        rcases Act.liftM_eq_ok.1 hlift with ⟨hread, rfl⟩
        rcases Act.pure_eq_ok.1 hreturn with ⟨rfl, rfl⟩
        exact ArgumentPassed.byRef (hsame.trans href) href hread
    | false =>
        rw [if_neg (by simp [href])] at h
        rcases Act.bind_eq_ok.1 h with ⟨value, _, hvalue, hreturn⟩
        rcases Act.pure_eq_ok.1 hreturn with ⟨rfl, rfl⟩
        exact ArgumentPassed.byValue (hsame.trans href) href hvalue

/-- Arguments are passed to parameters one after the other; further parameters keep their
defaults. -/
inductive ArgumentsPassed (story : Story) :
    List Param → List Argument → Act.Passed → Player → Act.Passed → Player → Prop
  | nil {params : List Param} {passed : Act.Passed} {p : Player} :
      ArgumentsPassed story params [] passed p passed p
  | cons {param : Param} {params : List Param} {argument : Argument} {arguments : List Argument}
      {passed middle passed' : Act.Passed} {p r q : Player} :
      ArgumentPassed story param argument passed p middle r →
      ArgumentsPassed story params arguments middle r passed' q →
      ArgumentsPassed story (param :: params) (argument :: arguments) passed p passed' q

/-- Arguments are passed in order, each by value or by reference as its parameter says. -/
theorem argumentsPassed_of_passArguments {excess : Fault} {params : List Param}
    {arguments : List Argument} {passed passed' : Act.Passed}
    (h : Act.passArguments story script excess params arguments passed p = .ok (passed', q)) :
    ArgumentsPassed story params arguments passed p passed' q := by
  induction arguments generalizing params passed p with
  | nil =>
      rw [Act.passArguments] at h
      rcases Act.pure_eq_ok.1 h with ⟨rfl, rfl⟩
      exact ArgumentsPassed.nil
  | cons argument rest ih =>
      cases params with
      | nil => exact (Act.fail_eq_ok.1 h).elim
      | cons param params =>
          rcases Act.bind_eq_ok.1 h with ⟨middle, r, hfirst, hrest⟩
          exact ArgumentsPassed.cons (argumentPassed_of_passArgument hfirst) (ih hrest)

/-- References are passed for parameters that take them. -/
theorem ArgumentsPassed.refs {params : List Param} {arguments : List Argument}
    {passed passed' : Act.Passed} (h : ArgumentsPassed story params arguments passed p passed' q) :
    ∀ key ∈ Dict.keys passed'.refs, key ∈ Dict.keys passed.refs ∨
      ∃ param ∈ params, param.name = key ∧ param.byRef = true := by
  induction h with
  | nil => exact fun key hkey => Or.inl hkey
  | @cons param params argument _ passed middle passed' p r q hfirst _ ih =>
      intro key hkey
      rcases ih key hkey with hmiddle | ⟨other, hother, hbound⟩
      · cases hfirst with
        | byRef href _ _ =>
            rcases Dict.mem_keys_insert.1 hmiddle with rfl | hold
            · exact Or.inr ⟨param, List.mem_cons_self, rfl, href⟩
            · exact Or.inl hold
        | byValue _ _ _ => exact Or.inl hmiddle
      · exact Or.inr ⟨other, List.mem_cons_of_mem _ hother, hbound⟩

/-- A frame above frames that were there before. -/
theorem origin_pushed {node : Node} {below : List Frame} {frame g : Frame}
    (hbelow : Frames.Inherited p.frames below)
    (hnew : Origin story p node { frame with id := p.counter })
    (hg : g ∈ { frame with id := p.counter } :: below) : Origin story p node g := by
  rcases List.mem_cons.1 hg with rfl | hg
  · exact hnew
  · rcases hbelow g hg with ⟨f, hf, hinherits⟩
    exact Origin.kept hf hinherits

/-- A frame that was there before stems from there. -/
theorem origin_inherited {node : Node} {frames : List Frame} {g : Frame}
    (h : Frames.Inherited p.frames frames) (hg : g ∈ frames) : Origin story p node g := by
  rcases h g hg with ⟨f, hf, hinherits⟩
  exact Origin.kept hf hinherits

/-- Every frame after a move was there before, or was pushed by the node. -/
theorem Move.origin {node : Node} {out : Option Output} (h : Move story script p node out q) :
    ∀ g ∈ q.frames, Origin story p node g := by
  intro g hg
  cases h with
  | textUsed _ hframes =>
      exact origin_inherited (inherited_advanced (Player.Evaluated.refl p) hframes) hg
  | text _ hrender hframes =>
      have heval := (Act.evaluates_render story _).ok hrender
      exact origin_inherited (inherited_advanced heval hframes) hg
  | code hexecute hframes =>
      have heval := (Act.evaluates_execute story _).ok hexecute
      exact origin_inherited (inherited_advanced heval hframes) hg
  | declare hvalue hframes hname hfits =>
      have hfirst := Frames.Inherited.of_revalued hvalue.evaluated.frames
      rw [hframes] at hfirst
      have hdeclared := hfirst.cons (Frame.inherits_declared hname hfits)
      exact origin_inherited (hdeclared.cons (Frame.inherits_moved _ _)) hg
  | branchOver hcondition hframes =>
      have heval := (Act.evaluates_condition story _).ok hcondition
      exact origin_inherited (inherited_advanced heval hframes) hg
  | branchInto hcondition hframes _ _ =>
      have heval := (Act.evaluates_condition story _).ok hcondition
      simp only [Player.push, heval.counter] at hg
      exact origin_pushed (inherited_advanced heval hframes) (Origin.entered rfl rfl rfl) hg
  | loopOver hcondition hframes =>
      have heval := (Act.evaluates_condition story _).ok hcondition
      exact origin_inherited (inherited_advanced heval hframes) hg
  | loopInto hcondition _ =>
      have heval := (Act.evaluates_condition story _).ok hcondition
      simp only [Player.push, heval.counter] at hg
      exact origin_pushed (inherited_of_evaluated heval (List.suffix_refl _))
        (Origin.entered rfl rfl rfl) hg
  | choiceOver hoffered hframes =>
      have heval := (Act.evaluates_offered story _ _).ok hoffered
      exact origin_inherited (inherited_advanced heval hframes) hg
  | choice hoffered _ hitems hprompt _ =>
      have heval := evaluated_of_choice hoffered hitems hprompt
      exact origin_inherited (inherited_of_evaluated heval (List.suffix_refl _)) hg
  | call _ _ hcallee _ hpassed _ hlocals =>
      have heval := (Act.evaluates_passArguments story _ _ _ _ _).ok hpassed
      simp only [Player.push, heval.counter] at hg
      refine origin_pushed (inherited_of_evaluated heval (List.suffix_refl _)) ?_ hg
      -- References are bound from none on, for parameters that take them.
      refine Origin.started rfl hcallee hlocals (HandedOn.bound ?_) rfl
      intro key hkey
      rcases (argumentsPassed_of_passArguments hpassed).refs key hkey with hold | ⟨param, hparam, hname, href⟩
      · cases hold
      · exact List.any_eq_true.2 ⟨param, hparam, by simp [hname, href]⟩
  | @tailCall _ _ _ _ _ _ c _ _ _ caller _ hframes hgroup hcallee _ hpassed hroot hc hlast hlocals =>
      have heval := (Act.evaluates_passArguments story _ _ _ _ _).ok hpassed
      have hbelow := inherited_of_evaluated heval (hframes ▸ List.suffix_cons _ _)
      simp only [Player.push, heval.counter] at hg
      refine origin_pushed hbelow ?_ hg
      -- The caller that is replaced is the innermost frame, up to the values of its variables.
      rcases heval.cons hframes with ⟨f, under, hp, hhead, -⟩
      have hgroup' : story.group f.group = .ok caller := by
        rw [hhead.same] at hgroup
        exact hgroup
      have hc' : f.continuation = some c := by
        rw [hhead.same] at hc
        exact hc
      have htail : Act.isTailCall f caller.2.nodes.length = true := by
        rw [← isTailCall_congr hhead, isTailCall_eq_true]
        exact ⟨hroot, ⟨c, hc⟩, hlast⟩
      exact Origin.started rfl hcallee hlocals (HandedOn.tail hp hgroup' htail hc') rfl
  | @leaveScript _ _ root below _ hroot hsettle =>
      rcases Frames.currentRoot?_suffix hroot with ⟨-, hsuffix⟩
      have hbelow := Frames.Inherited.of_subset
        ((List.suffix_cons root below).trans hsuffix).subset
      have hsettled := settle_inherited story root.scope root.continuation
        { p with frames := below }
      rw [hsettle] at hsettled
      exact origin_inherited (hbelow.trans hsettled) hg
  | transferAtBottom hcallee _ hvalues hlocals hroot _ =>
      have heval := (Act.evaluates_transferArguments story _ _ _ _ _).ok hvalues
      rcases Frames.currentRoot?_suffix hroot with ⟨-, hsuffix⟩
      have hbelow := inherited_of_evaluated heval ((List.suffix_cons _ _).trans hsuffix)
      simp only [Player.push, heval.counter] at hg
      exact origin_pushed hbelow (Origin.started rfl hcallee hlocals HandedOn.bottom rfl) hg
  | transfer hcallee _ hvalues hlocals hroot _ hover =>
      have heval := (Act.evaluates_transferArguments story _ _ _ _ _).ok hvalues
      rcases Frames.currentRoot?_suffix hroot with ⟨-, hsuffix⟩
      have hbelow := inherited_of_evaluated heval ((List.suffix_cons _ _).trans hsuffix)
      simp only [Player.push, heval.counter] at hg
      refine origin_pushed (hbelow.trans (Frames.Inherited.of_revalued hover.revalued)) ?_ hg
      -- The script that takes over starts without references.
      refine Origin.started rfl hcallee hlocals (HandedOn.bound ?_) rfl
      intro key hkey
      cases hkey
  | leave hbelow _ _ =>
      have hsuffix := Frames.belowLoop?_suffix hbelow
      exact origin_inherited ((Frames.Inherited.of_subset hsuffix.subset).cons
        (Frame.inherits_moved _ _)) hg
  | again hbelow _ _ =>
      have hsuffix := Frames.belowLoop?_suffix hbelow
      exact origin_inherited (Frames.Inherited.of_subset hsuffix.subset) hg

/-! ## Steps and answers -/

/-- Every frame after a step was there before, or was pushed by the node that was run. -/
theorem Step.origin {progress : Progress} (h : Step story p progress q) :
    Frames.Inherited p.frames q.frames ∨
      ∃ node, (∀ fault, progress ≠ .failed fault) ∧ p.StandsAt story node ∧
        ∀ g ∈ q.frames, Origin story p node g := by
  cases h with
  | concluded _ => exact Or.inl (Frames.Inherited.of_subset (List.Subset.refl _))
  | groupMissing _ _ => exact Or.inl (Frames.Inherited.of_subset (List.Subset.refl _))
  | @finished f _ _ _ _ _ _ hfinish =>
      have hinherited := finishFrame_inherited story f.id p
      rw [hfinish] at hinherited
      exact Or.inl hinherited
  | @finishFailed f _ _ _ _ _ _ _ hfinish =>
      have hinherited := finishFrame_inherited story f.id p
      rw [hfinish] at hinherited
      exact Or.inl hinherited
  | @moved _ _ _ _ out _ hframes hgroup hnode hmove =>
      refine Or.inr ⟨_, ?_, standsAt_of_group hframes hgroup hnode, hmove.origin⟩
      intro fault
      cases out <;> exact Progress.noConfusion
  | nodeFailed _ _ _ _ => exact Or.inl (Frames.Inherited.of_subset (List.Subset.refl _))

/-- Every frame after an answer was there before, or is that of the option that was chosen. -/
theorem Answer.origin {index : Nat} (h : Answer story p index q) :
    ∀ g ∈ q.frames, (∃ f ∈ p.frames, f.Inherits g) ∨
      (g.id = p.counter ∧ g.root = false ∧ g.scope = []) := by
  cases h with
  | @mk _ _ f _ _ _ _ _ _ hframe _ _ _ =>
      have hkept := (Frames.Inherited.of_subset (Frames.upTo?_suffix hframe).subset).cons
        (Frame.inherits_moved f (f.node + 1))
      intro g hg
      rcases List.mem_cons.1 hg with rfl | hg
      · exact Or.inr ⟨rfl, rfl, rfl⟩
      · exact Or.inl (hkept g hg)

end StoryPlayer
