import Mathlib.Data.List.Forall2
import StoryPlayer.Player.Stack
import StoryPlayer.Proofs.Dict

/-!
# What formulas and write-backs change

Formulas and parameters passed by reference change values of variables that are declared, and
nothing else.  The relation `Frames.Revalued` says so for a whole stack:

- every frame stays where it is, with its number, group, cursor, types and continuation,
- it declares the same names as before,
- if its variables had values of their types, they still do.

All functions that write to variables are shown to keep within this relation; later proofs use the
relation and never open these functions again.
-/

namespace StoryPlayer

/-- A computation that succeeds starts with one that does. -/
theorem ok_of_bind {α β : Type} {e : Except Fault α} {f : α → Except Fault β} {y : β}
    (h : (e >>= f) = .ok y) : ∃ x, e = .ok x ∧ f x = .ok y := by
  cases e with
  | error fault => cases h
  | ok x => exact ⟨x, rfl, h⟩

/-- Two computations fail because the first one does, or the second one on its result. -/
theorem error_of_bind {α β : Type} {e : Except Fault α} {f : α → Except Fault β} {fault : Fault}
    (h : (e >>= f) = .error fault) : e = .error fault ∨ ∃ x, e = .ok x ∧ f x = .error fault := by
  cases e with
  | error other =>
      cases h
      exact .inl rfl
  | ok x => exact .inr ⟨x, rfl, h⟩

/-! ## Frames -/

/-- Every variable of the frame has a declared type and a value of this type. -/
def Frame.Typed (f : Frame) : Prop :=
  ∀ entry ∈ f.scope,
    ∃ type, Dict.get? f.types entry.1 = some type ∧ Value.fits type entry.2 = true

/-- The frames differ in the values of variables only, and types are respected. -/
structure Frame.Revalued (f g : Frame) : Prop where
  same : g = { f with scope := g.scope }
  names : ∀ name, Dict.contains g.scope name = Dict.contains f.scope name
  typed : f.Typed → g.Typed

namespace Frame.Revalued

variable {f g h : Frame}

theorem refl (f : Frame) : Revalued f f :=
  ⟨rfl, fun _ => rfl, fun hf => hf⟩

theorem trans (hfg : Revalued f g) (hgh : Revalued g h) : Revalued f h where
  same := by
    rw [hgh.same, hfg.same]
  names := fun name => (hgh.names name).trans (hfg.names name)
  typed := fun hf => hgh.typed (hfg.typed hf)

theorem types (hfg : Revalued f g) : g.types = f.types := by
  rw [hfg.same]

theorem id (hfg : Revalued f g) : g.id = f.id := by
  rw [hfg.same]

end Frame.Revalued

/-- A declared variable may take a value that its frame accepts. -/
theorem Frame.revalued_insert {f : Frame} {name : String} {value : Value}
    (hname : Dict.contains f.scope name = true)
    (htype : Frames.checkType f name value = .ok ()) :
    f.Revalued { f with scope := Dict.insert f.scope name value } where
  same := rfl
  names := Dict.contains_insert_of_contains value hname
  typed := by
    intro hf entry hentry
    rcases Dict.mem_of_mem_insert hentry with rfl | hold
    · -- The old value has a type, so the check was made against this type.
      rcases Dict.contains_iff_exists.1 hname with ⟨old, hold⟩
      rcases hf _ (Dict.mem_of_get? hold) with ⟨type, hget, -⟩
      refine ⟨type, hget, ?_⟩
      by_contra hfits
      simp [Frames.checkType, hget, hfits] at htype
    · exact hf entry hold

/-! ## Stacks -/

namespace Frames

/-- The stacks differ in the values of variables only, and types are respected. -/
def Revalued (fs gs : List Frame) : Prop :=
  List.Forall₂ Frame.Revalued fs gs

namespace Revalued

variable {fs gs hs : List Frame}

theorem refl (fs : List Frame) : Revalued fs fs :=
  List.forall₂_same.2 fun f _ => Frame.Revalued.refl f

theorem trans (hfg : Revalued fs gs) (hgh : Revalued gs hs) : Revalued fs hs := by
  unfold Revalued at *
  induction hfg generalizing hs with
  | nil => exact hgh
  | cons hhead _ ih =>
      cases hgh with
      | cons hhead' htail' => exact List.Forall₂.cons (hhead.trans hhead') (ih htail')

/-- A name is declared in the same place: nothing distinguishes the frames but values. -/
theorem declaring? {α : Type} {view : Frame → α} (h : Revalued fs gs) (name : String)
    (hview : ∀ {f g : Frame}, f.Revalued g → view g = view f) :
    (Frames.declaring? gs name).map view = (Frames.declaring? fs name).map view := by
  unfold Revalued at h
  induction h with
  | nil => rfl
  | @cons f g _ _ hhead _ ih =>
      by_cases hname : Dict.contains f.scope name = true
      · have hname' : Dict.contains g.scope name = true := by rw [hhead.names, hname]
        simp [Frames.declaring?, hname, hname', hview hhead]
      · have hname' : ¬ Dict.contains g.scope name = true := by rw [hhead.names]; exact hname
        simpa [Frames.declaring?, hname, hname'] using ih

/-- Which values are accepted does not depend on the values that are there. -/
theorem accepts (h : Revalued fs gs) (update : String × Value) :
    Frames.accepts gs update = Frames.accepts fs update := by
  have hdecl := h.declaring? update.1 Frame.Revalued.types
  unfold Frames.accepts
  cases hf : Frames.declaring? fs update.1 with
  | none =>
      have hg : Frames.declaring? gs update.1 = none := by simpa [hf] using hdecl
      simp only [hg]
  | some f =>
      obtain ⟨g, hg, htypes⟩ : ∃ g, Frames.declaring? gs update.1 = some g ∧ g.types = f.types := by
        simpa [hf] using hdecl
      simp only [hg, checkType, htypes]

/-- New values do not change which updates are accepted. -/
theorem acceptsAll (h : Revalued fs gs) (updates : List (String × Value)) :
    Frames.acceptsAll gs updates = Frames.acceptsAll fs updates := by
  induction updates with
  | nil => rfl
  | cons update rest ih => simp only [Frames.acceptsAll, h.accepts, ih]

end Revalued

/-! ## Writing to variables -/

variable {story : Story} {fs gs : List Frame} {name text : String} {value : Value}

theorem value?_of_declaring {frame : Frame} (h : declaring? fs name = some frame) :
    ∃ value, value? fs name = some value := by
  have hname : Dict.contains frame.scope name = true := by
    simpa using List.find?_some h
  rcases Dict.contains_iff_exists.1 hname with ⟨value, hget⟩
  exact ⟨value, by simp [value?, h, hget]⟩

/-- A write succeeds exactly if the name is declared and takes the value. -/
theorem write_eq_ok : write story fs name value = .ok gs ↔
    accepts fs (name, value) = .ok () ∧ gs = set name value fs := by
  unfold write accepts
  cases declaring? fs name with
  | none => simp
  | some f =>
      cases hcheck : checkType f name value with
      | error fault => simp [hcheck]
      | ok _ => simp [hcheck, eq_comm]

/-- A variable that takes a value has one. -/
theorem exists_of_accepts (h : accepts fs (name, value) = .ok ()) :
    ∃ old, value? fs name = some old := by
  unfold accepts at h
  split at h
  · next f hf => exact value?_of_declaring hf
  · cases h

/-- A write succeeds exactly if the path leads through maps of a variable, and the variable takes
what becomes of its value. -/
theorem writePath_eq_ok : writePath story fs text value = .ok gs ↔
    ∃ path old new, Path.parse text = .ok path ∧ value? fs path.root = some old ∧
      old.assign path.rest value = .ok new ∧ accepts fs (path.root, new) = .ok () ∧
      gs = set path.root new fs := by
  constructor
  · intro h
    rcases ok_of_bind h with ⟨path, hpath, hwrite⟩
    -- A bare name is written at once, a longer path into a copy of the old value.
    cases hrest : path.rest with
    | nil =>
        simp only [hrest] at hwrite
        rcases write_eq_ok.1 hwrite with ⟨haccepts, rfl⟩
        rcases exists_of_accepts haccepts with ⟨old, hold⟩
        exact ⟨path, old, value, hpath, hold, by rw [hrest]; rfl, haccepts, rfl⟩
    | cons key others =>
        simp only [hrest] at hwrite
        split at hwrite
        · cases hwrite
        · next old hold =>
          split at hwrite
          · next new hassign =>
            rcases write_eq_ok.1 hwrite with ⟨haccepts, rfl⟩
            exact ⟨path, old, new, hpath, hold, by rw [hrest]; exact hassign, haccepts, rfl⟩
          · cases hwrite
  · rintro ⟨path, old, new, hpath, hold, hassign, haccepts, rfl⟩
    have hwrite : write story fs path.root new = .ok (set path.root new fs) :=
      write_eq_ok.2 ⟨haccepts, rfl⟩
    cases hrest : path.rest with
    | nil =>
        rw [hrest] at hassign
        cases hassign
        simp [writePath, hpath, hrest, hwrite, bind, Except.bind]
    | cons key others =>
        rw [hrest] at hassign
        simp [writePath, hpath, hrest, hold, hassign, hwrite, bind, Except.bind]

/-- A value that is accepted may be written. -/
theorem revalued_set (h : accepts fs (name, value) = .ok ()) :
    Revalued fs (set name value fs) := by
  induction fs with
  | nil => exact Revalued.refl []
  | cons f below ih =>
      by_cases hname : Dict.contains f.scope name = true
      · have htype : checkType f name value = .ok () := by
          simpa [accepts, declaring?, hname] using h
        simp only [set, hname, if_true]
        exact List.Forall₂.cons (Frame.revalued_insert hname htype) (Revalued.refl below)
      · have hbelow : accepts below (name, value) = .ok () := by
          simpa [accepts, declaring?, hname] using h
        simp only [set, hname]
        exact List.Forall₂.cons (Frame.Revalued.refl f) (ih hbelow)

/-- Taking over updates changes values only. -/
theorem revalued_of_commit {updates : List (String × Value)}
    (h : commit fs updates = .ok gs) : Revalued fs gs := by
  unfold commit at h
  cases haccepts : acceptsAll fs updates with
  | error fault => simp [haccepts] at h
  | ok _ =>
      have hgs : updates.foldl (fun frames update => set update.1 update.2 frames) fs = gs := by
        simpa [haccepts] using h
      subst hgs
      clear h
      -- All updates were accepted at once; writing one of them does not change that.
      induction updates generalizing fs with
      | nil => exact Revalued.refl fs
      | cons update rest ih =>
          have hfirst : accepts fs update = .ok () := by
            cases hu : accepts fs update with
            | ok _ => rfl
            | error fault => simp [acceptsAll, hu] at haccepts
          have hrest : acceptsAll fs rest = .ok () := by simpa [acceptsAll, hfirst] using haccepts
          have hset : Revalued fs (set update.1 update.2 fs) := revalued_set hfirst
          exact hset.trans (ih ((hset.acceptsAll rest).trans hrest))

/-- Writing to a path changes values only. -/
theorem revalued_of_writePath (h : writePath story fs text value = .ok gs) : Revalued fs gs := by
  rcases writePath_eq_ok.1 h with ⟨_, _, _, -, -, -, haccepts, rfl⟩
  exact revalued_set haccepts

/-- Whether or not it succeeds, a write-back only changes values. -/
theorem revalued_writeBack (story : Story) (scope : Dict Value) (refs : Dict String)
    (fs : List Frame) : Revalued fs (writeBack story scope refs fs).2 := by
  induction refs generalizing fs with
  | nil => exact Revalued.refl fs
  | cons binding rest ih =>
      rcases binding with ⟨name, path⟩
      simp only [writeBack]
      split
      · exact Revalued.refl fs
      · split
        · exact Revalued.refl fs
        · next hwrite => exact (revalued_of_writePath hwrite).trans (ih _)

end Frames
end StoryPlayer
