import StoryPlayer.Proofs.Revalued

/-!
# Places that paths lead to

A path means a place in a variable of one frame.  What is written there is read from there, and it
does not touch any other place.

- `Value.lookup_assign` and `Value.lookup_assign_apart` say this of values,
- `Frames.owner?` is the number of the frame whose variable a name means, and `Frames.Put` says that
  one place of a variable of this frame has got a value,
- `Frames.Returned` says that values are put one after the other where paths lead to, and
  `returned_of_writeBack` that a write-back does nothing else,
- `Frames.Returned.readPath` and `Frames.Returned.spared` conclude what is found afterwards.
-/

namespace StoryPlayer

/-! ## Places in values -/

namespace Path

def names (path : Path) : List String :=
  path.root :: path.rest

/-- Neither of the paths leads through the place of the other. -/
def Apart (path other : Path) : Prop :=
  ¬ path.names <+: other.names ∧ ¬ other.names <+: path.names

theorem Apart.symm {path other : Path} (h : path.Apart other) : other.Apart path :=
  And.symm h

/-- Paths into one variable are apart if the names behind the variable are. -/
theorem Apart.rest {path other : Path} (h : path.Apart other) (hroot : path.root = other.root) :
    ¬ path.rest <+: other.rest ∧ ¬ other.rest <+: path.rest := by
  simpa [Apart, names, List.cons_prefix_cons, hroot] using h

end Path

namespace Value

variable {old new value : Value} {key : String} {rest : List String}

/-- A value in a map is replaced by binding a name of the map anew. -/
theorem assign_cons (h : old.assign (key :: rest) value = .ok new) :
    ∃ entries inner, old = .map entries ∧ new = .map (Dict.insert entries key inner) ∧
      (rest = [] ∧ inner = value ∨
        ∃ first, Dict.get? entries key = some first ∧ first.assign rest value = .ok inner) := by
  cases old with
  | map entries =>
      cases rest with
      | nil =>
          cases h
          exact ⟨entries, value, rfl, rfl, Or.inl ⟨rfl, rfl⟩⟩
      | cons next others =>
          simp only [assign] at h
          split at h
          · next first hfirst =>
            split at h
            · next inner hinner =>
              cases h
              exact ⟨entries, inner, rfl, rfl, Or.inr ⟨first, hfirst, hinner⟩⟩
            · cases h
          · cases h
  | _ => simp [assign] at h

/-- What is put somewhere is found there. -/
theorem lookup_assign {names : List String} (h : old.assign names value = .ok new) :
    new.lookup names = .ok value := by
  induction names generalizing old new with
  | nil =>
      cases h
      rfl
  | cons key rest ih =>
      rcases assign_cons h with ⟨entries, inner, -, rfl, ⟨rfl, rfl⟩ | ⟨first, -, hinner⟩⟩
      · simp [lookup, Dict.get?_insert]
      · simpa [lookup, Dict.get?_insert] using ih hinner

/-- It does not change what is found elsewhere. -/
theorem lookup_assign_apart {names others : List String} (h : old.assign names value = .ok new)
    (hinside : ¬ names <+: others) (houtside : ¬ others <+: names) :
    new.lookup others = old.lookup others := by
  induction names generalizing old new others with
  | nil => exact absurd List.nil_prefix hinside
  | cons key rest ih =>
      cases others with
      | nil => exact absurd List.nil_prefix houtside
      | cons other more =>
          rcases assign_cons h with ⟨entries, inner, rfl, rfl, hinner⟩
          by_cases hkey : key = other
          · subst hkey
            -- The names lead into the same value, and part on the way on.
            rw [List.cons_prefix_cons] at hinside houtside
            have hin : ¬ rest <+: more := fun hprefix => hinside ⟨rfl, hprefix⟩
            have hout : ¬ more <+: rest := fun hprefix => houtside ⟨rfl, hprefix⟩
            rcases hinner with ⟨rfl, -⟩ | ⟨first, hfirst, hassign⟩
            · exact absurd List.nil_prefix hin
            · simpa [lookup, Dict.get?_insert, hfirst] using ih hassign hin hout
          · simp [lookup, Dict.get?_insert, hkey]

end Value

/-! ## Places in stacks -/

namespace Frames

variable {story : Story} {fs gs hs : List Frame} {f : Frame} {above under : List Frame}
  {name : String} {id : UInt64} {path other : Path} {value : Value}

def owner? (frames : List Frame) (name : String) : Option UInt64 :=
  (declaring? frames name).map Frame.id

theorem Revalued.owner? (h : Revalued fs gs) (name : String) :
    Frames.owner? gs name = Frames.owner? fs name :=
  h.declaring? name Frame.Revalued.id

/-- A place of one variable has got a value: a variable of the frame with the number, the innermost
one that declares it. -/
inductive Put (id : UInt64) (path : Path) (value : Value) : List Frame → List Frame → Prop
  | mk {above under : List Frame} {f : Frame} {old new : Value} :
      (∀ g ∈ above, Dict.contains g.scope path.root = false) → f.id = id →
      Dict.get? f.scope path.root = some old → old.assign path.rest value = .ok new →
      Put id path value (above ++ f :: under)
        (above ++ { f with scope := Dict.insert f.scope path.root new } :: under)

def Holds (frames : List Frame) (path : Path) (value : Value) : Prop :=
  ∃ root, value? frames path.root = some root ∧ root.lookup path.rest = .ok value

/-- A path holds a value exactly if its variable has one in which the other names lead to it. -/
theorem holds_iff : Holds fs path value ↔
    (value? fs path.root).map (fun root => root.lookup path.rest) = some (.ok value) := by
  rw [Holds, Option.map_eq_some_iff]

/-- The innermost frame is looked at first. -/
theorem value?_cons (f : Frame) (below : List Frame) (name : String) :
    value? (f :: below) name = (Dict.get? f.scope name).or (value? below name) := by
  cases hname : Dict.get? f.scope name with
  | none => simp [value?, declaring?, Dict.contains, hname]
  | some found => simp [value?, declaring?, Dict.contains, hname]

/-- Frames that do not declare a name are looked through. -/
theorem value?_append (h : ∀ g ∈ above, Dict.contains g.scope name = false) :
    value? (above ++ fs) name = value? fs name := by
  induction above with
  | nil => rfl
  | cons g rest ih =>
      have hnone : Dict.get? g.scope name = none := by
        simpa [Dict.contains] using h g List.mem_cons_self
      rw [List.cons_append, value?_cons, hnone, Option.none_or]
      exact ih fun g hg => h g (List.mem_cons_of_mem _ hg)

/-- Of a frame only the variable counts that is looked for. -/
theorem value?_congr {g : Frame} (h : Dict.get? g.scope name = Dict.get? f.scope name) :
    value? (above ++ g :: under) name = value? (above ++ f :: under) name := by
  induction above with
  | nil => rw [List.nil_append, List.nil_append, value?_cons, value?_cons, h]
  | cons first rest ih => rw [List.cons_append, List.cons_append, value?_cons, value?_cons, ih]

/-- What a path holds is what is read. -/
theorem readPath_of_holds {text : String} (hpath : Path.parse text = .ok path)
    (h : Holds fs path value) : readPath story fs text = .ok value := by
  rcases h with ⟨root, hroot, hlookup⟩
  simp [readPath, hpath, read, hroot, hlookup, bind, Except.bind, pure, Except.pure]

namespace Put

/-- After a write the path holds what was written. -/
theorem holds (h : Put id path value fs gs) : Holds gs path value := by
  cases h with
  | @mk above under f old new habove _ _ hassign =>
      refine ⟨new, ?_, Value.lookup_assign hassign⟩
      rw [value?_append habove, value?_cons]
      simp [Dict.get?_insert]

/-- What is found in other places, be it a value or an obstacle, is found there as before. -/
theorem found_apart (h : Put id other value fs gs) (hapart : path.Apart other) :
    (value? gs path.root).map (fun root => root.lookup path.rest) =
      (value? fs path.root).map fun root => root.lookup path.rest := by
  cases h with
  | @mk above under f old new habove _ hold hassign =>
      by_cases hsame : path.root = other.root
      · -- The value of the variable is another one, which is the same in the place of the path.
        rcases hapart.rest hsame with ⟨hinside, houtside⟩
        have hlookup := Value.lookup_assign_apart hassign houtside hinside
        rw [hsame, value?_append habove, value?_append habove, value?_cons, value?_cons, hold]
        simp [Dict.get?_insert, hlookup]
      · have hother : Dict.get? (Dict.insert f.scope other.root new) path.root =
            Dict.get? f.scope path.root := by
          simp [Dict.get?_insert, Ne.symm hsame]
        rw [value?_congr hother]

/-- Other places keep what they hold. -/
theorem holds_apart {kept : Value} (h : Put id other value fs gs) (hapart : path.Apart other)
    (hpath : Holds fs path kept) : Holds gs path kept := by
  rw [holds_iff] at hpath ⊢
  rw [h.found_apart hapart, hpath]

end Put

/-! ## Writing to places -/

/-- Frames that do not declare the name are passed over. -/
theorem set_append {new : Value} (habove : ∀ g ∈ above, Dict.contains g.scope name = false)
    (hf : Dict.contains f.scope name = true) :
    set name new (above ++ f :: under) =
      above ++ { f with scope := Dict.insert f.scope name new } :: under := by
  induction above with
  | nil => simp [set, hf]
  | cons g rest ih =>
      have hg : Dict.contains g.scope name = false := habove g List.mem_cons_self
      simp [set, hg, ih fun g hg => habove g (List.mem_cons_of_mem _ hg)]

/-- A variable is written where its name is declared. -/
theorem put_of_set {old new : Value} (hold : value? fs path.root = some old)
    (hassign : old.assign path.rest value = .ok new) :
    ∃ id, owner? fs path.root = some id ∧ Put id path value fs (set path.root new fs) := by
  rcases Option.bind_eq_some_iff.1 hold with ⟨f, hf, hget⟩
  rcases List.find?_eq_some_iff_append.1 hf with ⟨hname, above, under, rfl, habove⟩
  have hothers : ∀ g ∈ above, Dict.contains g.scope path.root = false := by
    simpa using habove
  refine ⟨f.id, by simp [owner?, hf], ?_⟩
  rw [set_append hothers hname]
  exact Put.mk hothers rfl hget hassign

/-- A path is written where it leads to. -/
theorem put_of_writePath {text : String} (h : writePath story fs text value = .ok gs) :
    ∃ path id, Path.parse text = .ok path ∧ owner? fs path.root = some id ∧
      Put id path value fs gs := by
  rcases writePath_eq_ok.1 h with ⟨path, old, new, hpath, hold, hassign, -, rfl⟩
  rcases put_of_set hold hassign with ⟨id, hid, hput⟩
  exact ⟨path, id, hpath, hid, hput⟩

/-! ## Several places -/

/-- Values of variables are put where the paths bound to their names lead to, one after the other.
The frame of each path is given by `owner`. -/
inductive Returned (scope : Dict Value) (owner : String → Option UInt64) :
    Dict String → List Frame → List Frame → Prop
  | nil {fs : List Frame} : Returned scope owner [] fs fs
  | cons {name text : String} {value : Value} {path : Path} {id : UInt64} {rest : Dict String}
      {fs gs hs : List Frame} :
      Dict.get? scope name = some value → Path.parse text = .ok path →
      owner path.root = some id → Put id path value fs gs → Returned scope owner rest gs hs →
      Returned scope owner ((name, text) :: rest) fs hs

/-- A write-back puts values where their paths lead to before it starts. -/
theorem returned_of_writeBack {scope : Dict Value} {owner : String → Option UInt64}
    {refs : Dict String} (howner : ∀ name, owner? fs name = owner name)
    (h : writeBack story scope refs fs = (.ok (), gs)) : Returned scope owner refs fs gs := by
  induction refs generalizing fs with
  | nil =>
      cases h
      exact Returned.nil
  | cons binding rest ih =>
      rcases binding with ⟨name, text⟩
      simp only [writeBack] at h
      split at h
      · cases h
      · next value hvalue =>
        split at h
        · cases h
        · next hs hwrite =>
          rcases put_of_writePath hwrite with ⟨path, id, hpath, hid, hput⟩
          -- A write declares no names, so the paths behind it lead to the same frames.
          have hrest : ∀ name, owner? hs name = owner name := fun name =>
            ((revalued_of_writePath hwrite).owner? name).trans (howner name)
          exact Returned.cons hvalue hpath ((howner _).symm.trans hid) hput (ih hrest h)

/-- The frames are the same, and of their variables only some have new values. -/
def Spared (touched : UInt64 → String → Prop) (fs gs : List Frame) : Prop :=
  List.Forall₂ (fun f g => g = { f with scope := g.scope } ∧
    ∀ name, ¬ touched f.id name → Dict.get? g.scope name = Dict.get? f.scope name) fs gs

namespace Spared

variable {touched : UInt64 → String → Prop}

theorem refl (fs : List Frame) : Spared touched fs fs :=
  List.forall₂_same.2 fun _ _ => ⟨rfl, fun _ _ => rfl⟩

theorem trans (hfg : Spared touched fs gs) (hgh : Spared touched gs hs) :
    Spared touched fs hs := by
  unfold Spared at *
  induction hfg generalizing hs with
  | nil => exact hgh
  | cons hhead _ ih =>
      cases hgh with
      | cons hhead' htail' =>
          refine List.Forall₂.cons ⟨?_, fun name hname => ?_⟩ (ih htail')
          · rw [hhead'.1, hhead.1]
          · rw [hhead'.2 name (by rw [hhead.1]; exact hname), hhead.2 name hname]

end Spared

/-- A write touches nothing but the variable of its path. -/
theorem Put.spared {touched : UInt64 → String → Prop} (h : Put id path value fs gs)
    (htouched : touched id path.root) : Spared touched fs gs := by
  cases h with
  | @mk above under f old new _ hid _ _ =>
      refine List.rel_append (Spared.refl above) (List.Forall₂.cons ⟨rfl, ?_⟩ (Spared.refl under))
      intro name hname
      have hne : path.root ≠ name := by
        rintro rfl
        exact hname (hid ▸ htouched)
      simp [Dict.get?_insert, hne]

namespace Returned

variable {scope : Dict Value} {owner : String → Option UInt64} {refs : Dict String}

/-- Variables that none of the paths means keep their values. -/
theorem spared (h : Returned scope owner refs fs gs) :
    Spared (fun id name => ∃ binding ∈ refs, ∃ path, Path.parse binding.2 = .ok path ∧
      path.root = name ∧ owner name = some id) fs gs := by
  induction h with
  | nil => exact Spared.refl _
  | @cons name text value path id rest fs gs hs _ hpath hid hput _ ih =>
      refine (hput.spared ⟨(name, text), List.mem_cons_self, path, hpath, rfl, hid⟩).trans ?_
      refine List.Forall₂.imp (fun f g hfg => ⟨hfg.1, fun name hname => hfg.2 name ?_⟩) ih
      rintro ⟨binding, hbinding, hmeans⟩
      exact hname ⟨binding, List.mem_cons_of_mem _ hbinding, hmeans⟩

/-- Places that are apart from all the paths keep what they hold. -/
theorem holds_apart (h : Returned scope owner refs fs gs)
    (hapart : ∀ binding ∈ refs, ∀ other, Path.parse binding.2 = .ok other → path.Apart other)
    (hpath : Holds fs path value) : Holds gs path value := by
  induction h with
  | nil => exact hpath
  | @cons name text _ other id rest fs gs hs _ hother _ hput _ ih =>
      refine ih (fun binding hbinding => hapart binding (List.mem_cons_of_mem _ hbinding)) ?_
      exact hput.holds_apart (hapart _ List.mem_cons_self other hother) hpath

/-- Every path leads to a frame, and there is a value for it. -/
theorem bound {name text : String} (h : Returned scope owner refs fs gs)
    (hbinding : (name, text) ∈ refs) :
    ∃ value path id, Dict.get? scope name = some value ∧ Path.parse text = .ok path ∧
      owner path.root = some id := by
  induction h with
  | nil => cases hbinding
  | cons hvalue hpath hid _ _ ih =>
      rcases List.mem_cons.1 hbinding with heq | hlater
      · cases heq
        exact ⟨_, _, _, hvalue, hpath, hid⟩
      · exact ih hlater

/-- A path that is apart from the others leads to the value that was put there. -/
theorem readPath {name text : String} {path : Path} (h : Returned scope owner refs fs gs)
    (hdistinct : (Dict.keys refs).Nodup) (hbinding : (name, text) ∈ refs)
    (hvalue : Dict.get? scope name = some value) (hpath : Path.parse text = .ok path)
    (hapart : ∀ binding ∈ refs, binding.1 ≠ name → ∀ other, Path.parse binding.2 = .ok other →
      path.Apart other) : Frames.readPath story gs text = .ok value := by
  refine readPath_of_holds hpath ?_
  induction h with
  | nil => cases hbinding
  | @cons first source found place id rest fs gs hs hfound hplace _ hput hrest ih =>
      rcases List.nodup_cons.1 hdistinct with ⟨hfresh, hdistinct⟩
      have hlater : ∀ binding ∈ rest, binding.1 ≠ first := by
        intro binding hmem heq
        exact hfresh (List.mem_map.2 ⟨binding, hmem, heq⟩)
      rcases List.mem_cons.1 hbinding with heq | hmem
      · cases heq
        rcases Option.some.inj (hvalue.symm.trans hfound) with rfl
        rcases Except.ok.inj (hpath.symm.trans hplace) with rfl
        -- The value is put there now, and the paths that follow are all apart.
        refine hrest.holds_apart (fun binding hmem => ?_) hput.holds
        exact hapart binding (List.mem_cons_of_mem _ hmem) (hlater binding hmem)
      · exact ih hdistinct hmem fun binding hother =>
          hapart binding (List.mem_cons_of_mem _ hother)

end Returned
end Frames
end StoryPlayer
