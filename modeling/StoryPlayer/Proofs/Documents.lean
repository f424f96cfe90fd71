import StoryPlayer.Proofs.WellFormed
import StoryPlayer.Proofs.Origin

/-!
# Stories with other documents

What a step does depends on the documents of a story only as far as the scripts that run may look
into them.

- `Story.withGlobals` is a story with other documents, and `visible_withGlobals` compares what its
  scripts see,
- `Frames.SeesAlike` says that the scripts of all frames see the same documents in both stories,
- `Act.Same` holds of actions that do the same from all states whose frames see alike; the lemmas
  about it follow the actions that a node consists of,
- `dispatch_withGlobals` concludes that a step is the same in both stories.
-/

namespace StoryPlayer

/-! ## Documents by name -/

namespace Dict

variable {α : Type}

/-- A name before all others is not bound. -/
theorem get?_eq_none_of_lt {d : Dict α} {key : String} (h : ∀ entry ∈ d, key < entry.1) :
    get? d key = none := by
  cases hget : get? d key with
  | none => rfl
  | some value => exact absurd (h _ (mem_of_get? hget)) (lt_irrefl key)

/-- No name that is bound stands before the first one. -/
theorem le_of_get? {first : String × α} {rest : Dict α} {key : String} {value : α}
    (h : Sorted (first :: rest)) (hget : get? (first :: rest) key = some value) : first.1 ≤ key := by
  by_contra hlt
  have hbefore : key < first.1 := lt_of_not_ge hlt
  have hnone : get? (first :: rest) key = none := by
    refine get?_eq_none_of_lt fun entry hentry => ?_
    rcases List.mem_cons.1 hentry with rfl | hrest
    · exact hbefore
    · exact lt_trans hbefore ((List.pairwise_cons.1 h).1 entry hrest)
  rw [hnone] at hget
  cases hget

/-- Dictionaries in order are the same if every name is bound to the same in both. -/
theorem eq_of_get? {d e : Dict α} (hd : Sorted d) (he : Sorted e)
    (h : ∀ key, get? d key = get? e key) : d = e := by
  induction d generalizing e with
  | nil =>
      cases e with
      | nil => rfl
      | cons entry rest => simpa [get?] using h entry.1
  | cons first rest ih =>
      rcases first with ⟨name, value⟩
      cases e with
      | nil => simpa [get?] using h name
      | cons other others =>
          rcases other with ⟨name', value'⟩
          -- The first name of each dictionary is bound in the other one, so both are the same.
          have hname : name = name' := by
            apply le_antisymm
            · exact le_of_get? hd ((h name').trans (if_pos rfl))
            · exact le_of_get? he ((h name).symm.trans (if_pos rfl))
          subst hname
          have hvalue : value = value' := by simpa [get?] using h name
          subst hvalue
          rcases List.pairwise_cons.1 hd with ⟨hfirst, hrest⟩
          rcases List.pairwise_cons.1 he with ⟨hother, hothers⟩
          refine congrArg _ (ih hrest hothers fun key => ?_)
          by_cases hkey : name = key
          · subst hkey
            rw [get?_eq_none_of_lt hfirst, get?_eq_none_of_lt hother]
          · simpa [get?, hkey] using h key

/-- Of a dictionary only some names are kept. -/
theorem get?_filter (d : Dict α) (names : List String) (key : String) :
    get? (d.filter fun entry => names.contains entry.1) key =
      if key ∈ names then get? d key else none := by
  induction d with
  | nil => simp
  | cons first rest ih =>
      rcases first with ⟨name, value⟩
      by_cases hname : name ∈ names
      · by_cases hkey : name = key
        · subst hkey
          simp [get?, hname]
        · simpa [get?, hname, hkey] using ih
      · by_cases hkey : name = key
        · subst hkey
          simpa [hname] using ih
        · simpa [get?, hname, hkey] using ih

end Dict

def Story.withGlobals (story : Story) (globals : Globals) : Story :=
  { story with globals }

variable {story : Story} {globals : Globals} {p q : Player}

/-- Documents that agree on all names that a script lists are the same to it. -/
theorem visible_withGlobals {script : String} (hsorted : Dict.Sorted story.globals)
    (hsorted' : Dict.Sorted globals)
    (h : ∀ found, Dict.get? story.scripts script = some found →
      ∀ name ∈ found.visibleGlobals, Dict.get? globals name = Dict.get? story.globals name) :
    (story.withGlobals globals).visible script = story.visible script := by
  have hscripts : (story.withGlobals globals).scripts = story.scripts := rfl
  unfold Story.visible
  rw [hscripts]
  cases hfound : Dict.get? story.scripts script with
  | none => rfl
  | some found =>
      refine Dict.eq_of_get? (List.Pairwise.filter _ hsorted') (List.Pairwise.filter _ hsorted) ?_
      intro key
      refine (Dict.get?_filter globals _ key).trans
        (Eq.trans ?_ (Dict.get?_filter story.globals _ key).symm)
      by_cases hkey : key ∈ found.visibleGlobals
      · rw [if_pos hkey, if_pos hkey, h found hfound key hkey]
      · rw [if_neg hkey, if_neg hkey]

/-! ## What frames see -/

namespace Frames

variable {fs gs : List Frame} {scope : Dict Value}

/-- The scripts of all frames see the same documents in both stories. -/
def SeesAlike (story : Story) (globals : Globals) (frames : List Frame) : Prop :=
  ∀ f ∈ frames, ∀ script ∈ story.owner? f.group,
    (story.withGlobals globals).visible script = story.visible script

namespace SeesAlike

/-- Only the groups of frames matter. -/
theorem of_groups (h : SeesAlike story globals fs)
    (hgroups : gs.map Frame.group ⊆ fs.map Frame.group) : SeesAlike story globals gs := by
  intro g hg script hscript
  rcases List.mem_map.1 (hgroups (List.mem_map_of_mem hg)) with ⟨f, hf, hgroup⟩
  exact h f hf script (hgroup ▸ hscript)

/-- Fewer frames see the same documents all the more. -/
theorem subset (h : SeesAlike story globals fs) (hgs : gs ⊆ fs) : SeesAlike story globals gs :=
  fun g hg => h g (hgs hg)

/-- Values of variables do not matter for which documents are seen. -/
theorem revalued (h : SeesAlike story globals fs) (hgs : Revalued fs gs) :
    SeesAlike story globals gs := by
  have hgroups : gs.map Frame.group = fs.map Frame.group := by
    have houtlines := congrArg (List.map Frame.group) hgs.outlines
    rwa [List.map_map, List.map_map] at houtlines
  exact h.of_groups (hgroups ▸ List.Subset.refl _)

theorem documents (h : SeesAlike story globals fs) :
    Frames.documents (story.withGlobals globals) fs = Frames.documents story fs := by
  cases fs with
  | nil => rfl
  | cons f below =>
      have howner : (story.withGlobals globals).owner? f.group = story.owner? f.group := rfl
      simp only [Frames.documents, howner]
      cases hscript : story.owner? f.group with
      | none => rfl
      | some script => exact h f List.mem_cons_self script hscript

/-- A formula sees the same if its script sees the same documents. -/
theorem bindings (h : SeesAlike story globals fs) :
    Frames.bindings (story.withGlobals globals) fs = Frames.bindings story fs := by
  simp only [Frames.bindings, h.documents]

theorem isDocument (h : SeesAlike story globals fs) (name : String) :
    Frames.isDocument (story.withGlobals globals) fs name = Frames.isDocument story fs name := by
  unfold Frames.isDocument
  rw [h.documents]

theorem read (h : SeesAlike story globals fs) (name : String) :
    Frames.read (story.withGlobals globals) fs name = Frames.read story fs name := by
  unfold Frames.read
  rw [h.documents]

theorem readRef (h : SeesAlike story globals fs) (path : String) :
    Frames.readRef (story.withGlobals globals) fs path = Frames.readRef story fs path := by
  simp only [Frames.readRef, Frames.readPath, h.isDocument, h.read]

/-- A path is written alike: documents only matter for the fault. -/
theorem writePath (h : SeesAlike story globals fs) (path : String) (value : Value) :
    Frames.writePath (story.withGlobals globals) fs path value =
      Frames.writePath story fs path value := by
  simp only [Frames.writePath, Frames.write, Frames.unwritable, h.isDocument]

theorem writeBack (h : SeesAlike story globals fs) (refs : Dict String) :
    Frames.writeBack (story.withGlobals globals) scope refs fs =
      Frames.writeBack story scope refs fs := by
  induction refs generalizing fs with
  | nil => rfl
  | cons binding rest ih =>
      rcases binding with ⟨name, path⟩
      simp only [Frames.writeBack]
      cases Dict.get? scope name with
      | none => rfl
      | some value =>
          simp only [h.writePath]
          cases hwrite : Frames.writePath story fs path value with
          | error fault => rfl
          | ok frames => exact ih (h.revalued (revalued_of_writePath hwrite))

end SeesAlike
end Frames

/-! ## Actions -/

namespace Act

open Frames (SeesAlike)

variable {α β : Type}

/-- From all states whose frames see the same documents in both stories the actions do the same. -/
def Same (story : Story) (globals : Globals) (act act' : Act α) : Prop :=
  ∀ p : Player, SeesAlike story globals p.frames → act p = act' p

/-- What follows an action may depend on what the action has done. -/
theorem bind_congr {act : Act α} {f f' : α → Act β}
    (h : ∀ x q, act p = .ok (x, q) → f x q = f' x q) : (act >>= f) p = (act >>= f') p := by
  change (act p >>= fun s => f s.1 s.2) = (act p >>= fun s => f' s.1 s.2)
  cases hact : act p with
  | error failure => rfl
  | ok result => exact h result.1 result.2 hact

namespace Same

variable {act act' : Act α} {f f' : α → Act β}

theorem refl (act : Act α) : Same story globals act act :=
  fun _ _ => rfl

/-- Formulas leave the groups of frames, so what follows them starts from frames that see alike. -/
theorem bind (h : Same story globals act act') (hact : act'.Evaluates)
    (hf : ∀ x, Same story globals (f x) (f' x)) :
    Same story globals (act >>= f) (act' >>= f') := by
  intro p hp
  calc (act >>= f) p = (act' >>= f) p := by
        change (act p >>= fun s => f s.1 s.2) = (act' p >>= fun s => f s.1 s.2)
        rw [h p hp]
    _ = (act' >>= f') p := bind_congr fun x q hx => hf x q (hp.revalued (hact.ok hx).frames)

theorem afterGet {f f' : Player → Act α}
    (h : ∀ p, SeesAlike story globals p.frames → f p p = f' p p) :
    Same story globals (get >>= f) (get >>= f') :=
  h

/-- Faults that are put in other words stay the same. -/
theorem rewording {change : Fault → Fault} (h : Same story globals act act') :
    Same story globals (Act.rewording change act) (Act.rewording change act') := by
  intro p hp
  unfold Act.rewording
  rw [h p hp]

end Same

open Evaluates

theorem Evaluates.rewording {act : Act α} {change : Fault → Fault} (h : Evaluates act) :
    Evaluates (Act.rewording change act) where
  ok hok := h.ok (rewording_eq_ok.1 hok)
  error := by
    intro p failure hfail
    rcases rewording_eq_error.1 hfail with ⟨first, hfirst, rfl⟩
    have hreached := h.error hfirst
    exact hreached

theorem evaluates_top : Evaluates top := by
  refine Evaluates.get.bind fun p => ?_
  cases p.frames with
  | nil => exact Evaluates.fail _
  | cons f below => exact Evaluates.pure f

/-! ## Formulas and texts -/

variable (story globals)

/-- An expression has the same value with other documents that the script cannot see. -/
theorem same_evaluate (source : String) :
    Same story globals (evaluate (story.withGlobals globals) source) (evaluate story source) := by
  refine Same.afterGet fun p hp => ?_
  rw [hp.bindings]
  rfl

theorem same_execute (source : String) :
    Same story globals (execute (story.withGlobals globals) source) (execute story source) := by
  refine Same.afterGet fun p hp => ?_
  rw [hp.bindings]
  rfl

theorem same_condition (source : String) :
    Same story globals (condition (story.withGlobals globals) source) (condition story source) :=
  (same_evaluate story globals source).bind (evaluates_evaluate story source) fun _ => Same.refl _

/-- Each formula leaves the frames with the same documents, so the next one agrees too. -/
theorem same_renderHoles (holes : List (String × String)) :
    Same story globals (renderHoles (story.withGlobals globals) holes)
      (renderHoles story holes) := by
  induction holes with
  | nil => exact Same.refl _
  | cons hole rest ih =>
      rcases hole with ⟨source, text⟩
      refine (same_evaluate story globals source).bind (evaluates_evaluate story source) fun _ => ?_
      exact ih.bind (evaluates_renderHoles story rest) fun _ => Same.refl _

theorem same_render (text : String) :
    Same story globals (render (story.withGlobals globals) text) (render story text) :=
  (same_renderHoles story globals _).bind (evaluates_renderHoles story _) fun _ => Same.refl _

theorem same_renderOptional (text : Option String) :
    Same story globals (renderOptional (story.withGlobals globals) text)
      (renderOptional story text) := by
  cases text with
  | none => exact Same.refl _
  | some text =>
      exact (same_render story globals text).bind (evaluates_render story text) fun _ => Same.refl _

/-! ## Options -/

theorem same_available (script : String) (option : ChoiceOption) :
    Same story globals (available (story.withGlobals globals) script option)
      (available story script option) := by
  refine Same.afterGet fun p hp => ?_
  split
  · rfl
  · cases option.condition with
    | none => rfl
    | some source => exact same_condition story globals source p hp

theorem same_filterAvailable (script : String) (options : List ChoiceOption) :
    Same story globals (filterAvailable (story.withGlobals globals) script options)
      (filterAvailable story script options) := by
  induction options with
  | nil => exact Same.refl _
  | cons option rest ih =>
      refine (same_available story globals script option).bind
        (evaluates_available story script option) fun _ => ?_
      exact ih.bind (evaluates_filterAvailable story script rest) fun _ => Same.refl _

theorem same_offered (script : String) (options : List ChoiceOption) :
    Same story globals (offered (story.withGlobals globals) script options)
      (offered story script options) := by
  refine (same_filterAvailable story globals script _).bind
    (evaluates_filterAvailable story script _) fun ordinary => ?_
  split
  · split
    · exact same_filterAvailable story globals script _
    · exact Same.refl _
  · exact Same.refl _

theorem same_renderOptions (index : Nat) (options : List ChoiceOption) :
    Same story globals (renderOptions (story.withGlobals globals) index options)
      (renderOptions story index options) := by
  induction options generalizing index with
  | nil => exact Same.refl _
  | cons option rest ih =>
      refine (same_render story globals option.text).bind (evaluates_render story _) fun _ => ?_
      exact (ih (index + 1)).bind (evaluates_renderOptions story _ _) fun _ => Same.refl _

theorem same_offer (script node : String) (prompt : Option String) (options : List ChoiceOption) :
    Same story globals (offer (story.withGlobals globals) script node prompt options)
      (offer story script node prompt options) := by
  refine (same_offered story globals script options).bind
    (evaluates_offered story script options) fun shown => ?_
  split
  · exact Same.refl _
  · refine (same_renderOptions story globals 0 shown).bind
      (evaluates_renderOptions story 0 shown) fun items => ?_
    exact (same_renderOptional story globals prompt).bind
      (evaluates_renderOptional story prompt) fun _ => Same.refl _

/-! ## Single nodes -/

theorem same_firstValue (d : Declaration) :
    Same story globals (firstValue (story.withGlobals globals) d) (firstValue story d) := by
  unfold firstValue
  cases d.initial with
  | none => exact Same.refl _
  | some source => exact (same_evaluate story globals source).rewording

theorem evaluates_firstValue (d : Declaration) : Evaluates (firstValue story d) := by
  unfold firstValue
  cases d.initial with
  | none => exact Evaluates.pure _
  | some source => exact (evaluates_evaluate story source).rewording

theorem same_declare (d : Declaration) :
    Same story globals (declare (story.withGlobals globals) d) (declare story d) := by
  refine (Same.refl top).bind evaluates_top fun f => ?_
  split
  · exact Same.refl _
  · exact (same_firstValue story globals d).bind (evaluates_firstValue story d) fun _ => Same.refl _

theorem same_showText (script id value : String) (once : Bool) :
    Same story globals (showText (story.withGlobals globals) script id value once)
      (showText story script id value once) := by
  refine Same.afterGet fun p hp => ?_
  split
  · rfl
  · exact (same_render story globals value).bind (evaluates_render story value)
      (fun _ => Same.refl _) p hp

theorem same_branch (source yes : String) (no : Option String) :
    Same story globals (branch (story.withGlobals globals) source yes no)
      (branch story source yes no) :=
  (same_condition story globals source).bind (evaluates_condition story source)
    fun _ => Same.refl _

theorem same_loop (source body : String) :
    Same story globals (loop (story.withGlobals globals) source body) (loop story source body) :=
  (same_condition story globals source).bind (evaluates_condition story source)
    fun _ => Same.refl _

/-! ## Calls -/

theorem same_passArgument (script : String) (param : Param) (argument : Argument)
    (passed : Passed) :
    Same story globals (passArgument (story.withGlobals globals) script param argument passed)
      (passArgument story script param argument passed) := by
  unfold passArgument
  split
  · exact Same.refl _
  · split
    · refine Same.afterGet fun p hp => ?_
      rw [hp.readRef]
    · exact (same_evaluate story globals _).bind (evaluates_evaluate story _) fun _ => Same.refl _

theorem same_passArguments (script : String) (excess : Fault) (params : List Param)
    (arguments : List Argument) (passed : Passed) :
    Same story globals
      (passArguments (story.withGlobals globals) script excess params arguments passed)
      (passArguments story script excess params arguments passed) := by
  induction arguments generalizing params passed with
  | nil =>
      rw [passArguments, passArguments]
      exact Same.refl _
  | cons argument rest ih =>
      cases params with
      | nil => exact Same.refl _
      | cons param params =>
          exact (same_passArgument story globals script param argument passed).bind
            (evaluates_passArgument story script param argument passed) fun _ => ih _ _

theorem evaluates_transferArgument (script : String) (param : Param) (argument : Argument)
    (values : Dict Value) : Evaluates (transferArgument story script param argument values) := by
  unfold transferArgument
  split
  · exact Evaluates.fail _
  · exact (evaluates_evaluate story _).bind fun _ => Evaluates.pure _

theorem same_transferArguments (script : String) (excess : Fault) (params : List Param)
    (arguments : List Argument) (values : Dict Value) :
    Same story globals
      (transferArguments (story.withGlobals globals) script excess params arguments values)
      (transferArguments story script excess params arguments values) := by
  induction arguments generalizing params values with
  | nil =>
      rw [transferArguments, transferArguments]
      exact Same.refl _
  | cons argument rest ih =>
      cases params with
      | nil => exact Same.refl _
      | cons param params =>
          refine Same.bind ?_ (evaluates_transferArgument story script param argument values)
            fun _ => ih _ _
          unfold transferArgument
          split
          · exact Same.refl _
          · exact (same_evaluate story globals _).bind (evaluates_evaluate story _)
              fun _ => Same.refl _

/-- Calling a script looks at the documents of the caller only. -/
theorem same_call (target : String) (arguments : List Argument) :
    Same story globals (call (story.withGlobals globals) target arguments)
      (call story target arguments) := by
  refine (Same.refl top).bind evaluates_top fun caller => ?_
  refine (Same.refl _).bind (Evaluates.liftM (story.group caller.group)) fun group => ?_
  have hscripts : (story.withGlobals globals).scripts = story.scripts := rfl
  rw [hscripts]
  cases Dict.get? story.scripts target with
  | none => exact Same.refl _
  | some callee =>
      refine (Same.refl _).bind (Evaluates.liftM (story.group callee.root)) fun _ => ?_
      exact (same_passArguments story globals _ _ _ _ _).bind
        (evaluates_passArguments story _ _ _ _ _) fun _ => Same.refl _

end Act

/-! ## The way back -/

open Frames (SeesAlike)

/-- Going back to the caller looks at the documents of the frames that are left. -/
theorem settle_withGlobals (h : SeesAlike story globals p.frames) (scope : Dict Value)
    (c : Option Continuation) :
    p.settle (story.withGlobals globals) scope c = p.settle story scope c := by
  unfold Player.settle
  cases c with
  | none => rfl
  | some c => simp only [h.writeBack]

/-- So does the end of a group. -/
theorem finishFrame_withGlobals (h : SeesAlike story globals p.frames) (id : UInt64) :
    p.finishFrame (story.withGlobals globals) id = p.finishFrame story id := by
  unfold Player.finishFrame
  cases htake : Frames.takeOut? id p.frames with
  | none => rfl
  | some taken =>
      rcases taken with ⟨frame, others⟩
      have hothers : SeesAlike story globals others := h.subset (Frames.takeOut?_subset htake)
      have hsettle := @settle_withGlobals story globals { p with frames := others } hothers
      simp only [hsettle]

namespace Act

variable (story globals)

theorem same_settle (scope : Dict Value) (c : Option Continuation) :
    Same story globals (settle (story.withGlobals globals) scope c) (settle story scope c) := by
  intro p hp
  unfold settle
  rw [settle_withGlobals hp]

/-- What follows once the running script has been found and its frames have been taken away. -/
theorem same_afterRoot {f f' : Frame → Act Unit}
    (h : ∀ root, Same story globals (f root) (f' root)) :
    Same story globals
      (currentRoot >>= fun found => setFrames found.2 >>= fun _ => f found.1)
      (currentRoot >>= fun found => setFrames found.2 >>= fun _ => f' found.1) := by
  intro p hp
  refine bind_congr fun found q hfound => ?_
  rcases currentRoot_eq_ok.1 hfound with ⟨hroot, rfl⟩
  have hsuffix := (Frames.currentRoot?_suffix hroot).2
  exact h found.1 { p with frames := found.2 }
    (hp.subset ((List.suffix_cons _ _).trans hsuffix).subset)

theorem same_leaveScript :
    Same story globals (leaveScript (story.withGlobals globals)) (leaveScript story) :=
  same_afterRoot story globals fun root => same_settle story globals root.scope root.continuation

theorem same_handOver (scope : Dict Value) (c : Continuation) :
    Same story globals (handOver (story.withGlobals globals) scope c)
      (handOver story scope c) := by
  refine Same.afterGet fun p hp => ?_
  simp only [hp.writeBack]

theorem evaluates_currentRoot : Evaluates currentRoot := by
  refine Evaluates.get.bind fun p => ?_
  cases Frames.currentRoot? p.frames with
  | none => exact Evaluates.fail _
  | some found => exact Evaluates.pure found

/-- The script that takes over starts after everything has been handed over. -/
theorem same_takeOver (group : String) (locals : Locals) (root : Frame) :
    Same story globals
      (match root.continuation with
        | none => pushRoot group locals none
        | some c => do
          handOver (story.withGlobals globals) root.scope c
          pushRoot group locals (some { c with refs := [] }))
      (match root.continuation with
        | none => pushRoot group locals none
        | some c => do
          handOver story root.scope c
          pushRoot group locals (some { c with refs := [] })) := by
  cases root.continuation with
  | none => exact Same.refl _
  | some c =>
      intro p hp
      change (handOver (story.withGlobals globals) root.scope c p >>= fun s => _) =
        (handOver story root.scope c p >>= fun s => _)
      rw [same_handOver story globals root.scope c p hp]

/-- Handing over to another script agrees: arguments are computed before the running script goes
away. -/
theorem same_transfer (target : String) (arguments : List Argument) :
    Same story globals (transfer (story.withGlobals globals) target arguments)
      (transfer story target arguments) := by
  refine (Same.refl currentRoot).bind evaluates_currentRoot fun _ => ?_
  have hscripts : (story.withGlobals globals).scripts = story.scripts := rfl
  rw [hscripts]
  cases Dict.get? story.scripts target with
  | none => exact Same.refl _
  | some callee =>
      refine (Same.refl _).bind (Evaluates.liftM (story.group callee.root)) fun _ => ?_
      refine (same_transferArguments story globals _ _ _ _ _).bind
        (evaluates_transferArguments story _ _ _ _ _) fun values => ?_
      refine (Same.refl _).bind (Evaluates.liftM (story.locals target values)) fun locals => ?_
      exact same_afterRoot story globals fun root => same_takeOver story globals _ locals root

/-- A node does the same in both stories if the scripts of all frames see the same documents. -/
theorem same_runNode (script group : String) (index : Nat) (node : Node) :
    Same story globals (runNode (story.withGlobals globals) script group index node)
      (runNode story script group index node) := by
  -- Most nodes run an action and show nothing.
  have hquiet : ∀ {act act' : Act Unit}, Same story globals act act' →
      Same story globals (do act; return none : Act (Option Output)) (do act'; return none) := by
    intro act act' h p hp
    change (act p >>= fun s => _) = (act' p >>= fun s => _)
    rw [h p hp]
  cases node with
  | text id value once => exact same_showText story globals script id value once
  | code id source =>
      exact (same_execute story globals source).bind (evaluates_execute story source)
        fun _ => Same.refl _
  | declare id d =>
      intro p hp
      change (declare (story.withGlobals globals) d p >>= fun s => _) =
        (declare story d p >>= fun s => _)
      rw [same_declare story globals d p hp]
  | branch id source yes no => exact hquiet (same_branch story globals source yes no)
  | loop id source body => exact hquiet (same_loop story globals source body)
  | choice id prompt options => exact same_offer story globals script id prompt options
  | call id target arguments => exact hquiet (same_call story globals target arguments)
  | finish id target arguments =>
      cases target with
      | none => exact hquiet (same_leaveScript story globals)
      | some target => exact hquiet (same_transfer story globals target arguments)
  | leave id => exact Same.refl _
  | again id => exact Same.refl _
  | unknown => exact Same.refl _

end Act

/-! ## Steps -/

/-- A step is the same in both stories if the scripts of all frames see the same documents. -/
theorem dispatch_withGlobals (h : SeesAlike story globals p.frames) :
    p.dispatch (story.withGlobals globals) = p.dispatch story := by
  have hgroup : (story.withGlobals globals).group = story.group := rfl
  unfold Player.dispatch
  cases hframes : p.frames with
  | nil => rfl
  | cons f below =>
      simp only [hgroup]
      cases story.group f.group with
      | error fault => rfl
      | ok found =>
          simp only [finishFrame_withGlobals h]
          cases found.2.nodes[f.node]? with
          | none => rfl
          | some node => simp only [Act.same_runNode story globals _ _ _ node p h]

end StoryPlayer
