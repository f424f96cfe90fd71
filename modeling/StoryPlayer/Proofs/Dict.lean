import Mathlib.Data.String.Basic
import StoryPlayer.Dict

/-!
# Entries of dictionaries

What the view `Dict.get?` says about the entries of a dictionary, and what `Dict.insert` does to
them.  Only the lemmas of the last section need the entries to be in order.
-/

namespace StoryPlayer
namespace Dict

variable {α : Type}

/-- What a name is bound to is an entry. -/
theorem mem_of_get? {d : Dict α} {key : String} {value : α} :
    get? d key = some value → (key, value) ∈ d := by
  intro h
  induction d with
  | nil => simp at h
  | cons entry rest ih =>
      rcases entry with ⟨name, first⟩
      by_cases hname : name = key
      · have hvalue : first = value := by simpa [get?, hname] using h
        simp [hname, hvalue]
      · have hrest : get? rest key = some value := by simpa [get?, hname] using h
        exact List.mem_cons_of_mem _ (ih hrest)

/-- A name is bound exactly if it is the name of an entry. -/
theorem contains_iff_mem_keys {d : Dict α} {key : String} :
    contains d key = true ↔ key ∈ keys d := by
  induction d with
  | nil => simp [contains, keys]
  | cons entry rest ih =>
      rcases entry with ⟨name, first⟩
      by_cases hname : name = key
      · simp [contains, keys, get?, hname]
      · have hkey : ¬ key = name := fun h => hname h.symm
        simpa [contains, keys, get?, hname, hkey] using ih

theorem contains_iff_exists {d : Dict α} {key : String} :
    contains d key = true ↔ ∃ value, get? d key = some value := by
  simp [contains, Option.isSome_iff_exists]

theorem get?_eq_none {d : Dict α} {key : String} (h : key ∉ keys d) : get? d key = none := by
  rw [← Option.not_isSome_iff_eq_none]
  change ¬ contains d key = true
  rwa [contains_iff_mem_keys]

/-- A change of all values that keeps the names changes what a name is bound to. -/
theorem get?_map (f : String → α → α) (d : Dict α) (key : String) :
    get? (d.map fun entry => (entry.1, f entry.1 entry.2)) key = (get? d key).map (f key) := by
  induction d with
  | nil => rfl
  | cons first rest ih =>
      rcases first with ⟨name, value⟩
      by_cases hname : name = key
      · simp [get?, hname]
      · simpa [get?, hname] using ih

/-- A binding adds one entry; others were there before. -/
theorem mem_of_mem_insert {d : Dict α} {key : String} {value : α} {entry : String × α} :
    entry ∈ insert d key value → entry = (key, value) ∨ entry ∈ d := by
  intro h
  induction d with
  | nil => simpa using h
  | cons first rest ih =>
      rcases first with ⟨name, old⟩
      simp only [insert] at h
      split at h
      · simpa using h
      · split at h
        · -- The entry of the same name goes away; what is left was there before.
          rcases List.mem_cons.1 h with hnew | hrest
          · exact Or.inl hnew
          · exact Or.inr (List.mem_cons_of_mem _ hrest)
        · rcases List.mem_cons.1 h with hfirst | hrest
          · exact Or.inr (by simp [hfirst])
          · rcases ih hrest with hnew | hold
            · exact Or.inl hnew
            · exact Or.inr (List.mem_cons_of_mem _ hold)

theorem contains_insert (d : Dict α) (key other : String) (value : α) :
    contains (insert d key value) other = (decide (key = other) || contains d other) := by
  by_cases h : key = other <;> simp [contains, get?_insert, h]

/-- Binding a bound name anew binds no other names. -/
theorem contains_insert_of_contains {d : Dict α} {key : String} (value : α)
    (h : contains d key = true) (other : String) :
    contains (insert d key value) other = contains d other := by
  rw [contains_insert]
  by_cases hother : key = other
  · subst hother
    simp [h]
  · simp [hother]

theorem mem_keys_insert {d : Dict α} {key name : String} {value : α} :
    name ∈ keys (insert d key value) ↔ name = key ∨ name ∈ keys d := by
  rw [← contains_iff_mem_keys, ← contains_iff_mem_keys, contains_insert]
  by_cases h : key = name
  · simp [h]
  · have hname : ¬ name = key := fun hk => h hk.symm
    simp [h, hname]

/-- Of two bindings of a name the later one counts. -/
theorem insert_insert (d : Dict α) (key : String) (first second : α) :
    insert (insert d key first) key second = insert d key second := by
  induction d with
  | nil => simp [insert]
  | cons entry rest ih =>
      rcases entry with ⟨name, old⟩
      by_cases hlt : key < name
      · simp [insert, hlt]
      · by_cases hname : name = key
        · simp [insert, hname]
        · simp [insert, hlt, hname, ih]

/-! ## Entries in order -/

/-- An entry is put in its place. -/
theorem sorted_insert {d : Dict α} (h : Sorted d) (key : String) (value : α) :
    Sorted (insert d key value) := by
  unfold Sorted at *
  induction d with
  | nil => exact List.pairwise_singleton _ _
  | cons first rest ih =>
      rcases first with ⟨name, old⟩
      rcases List.pairwise_cons.1 h with ⟨hfirst, hrest⟩
      simp only [insert]
      -- The key comes before the first name, is this name, or comes after it.
      split
      · next hlt =>
        refine List.pairwise_cons.2 ⟨fun entry hentry => ?_, h⟩
        rcases List.mem_cons.1 hentry with rfl | hentry
        · exact hlt
        · exact lt_trans hlt (hfirst entry hentry)
      · next hge =>
        split
        · next heq =>
          subst heq
          exact List.pairwise_cons.2 ⟨hfirst, hrest⟩
        · next hne =>
          refine List.pairwise_cons.2 ⟨fun entry hentry => ?_, ih hrest⟩
          rcases mem_of_mem_insert hentry with rfl | hentry
          · exact lt_of_le_of_ne (not_lt.1 hge) hne
          · exact hfirst entry hentry

/-- Among entries in order a bound name is bound anew where it stands. -/
theorem insert_eq_map {d : Dict α} {key : String} (hsorted : Sorted d)
    (hkey : contains d key = true) (value : α) :
    insert d key value = d.map fun entry => if entry.1 = key then (key, value) else entry := by
  induction d with
  | nil => cases hkey
  | cons first rest ih =>
      rcases first with ⟨name, old⟩
      rcases List.pairwise_cons.1 hsorted with ⟨hfirst, hrest⟩
      by_cases hname : name = key
      · subst hname
        have hothers : ∀ entry ∈ rest, (if entry.1 = name then (name, value) else entry) = entry :=
          fun entry hentry => if_neg (ne_of_gt (hfirst entry hentry))
        simp [insert, List.map_congr_left hothers]
      · have hlater : contains rest key = true := by simpa [contains, get?, hname] using hkey
        rcases List.mem_map.1 (contains_iff_mem_keys.1 hlater) with ⟨entry, hentry, rfl⟩
        simp [insert, not_lt_of_gt (hfirst entry hentry), hname, ih hrest hlater]

/-- A name that is bound anew keeps no older entry. -/
theorem ne_of_mem_insert {d : Dict α} (h : Sorted d) {key : String} {value : α}
    {entry : String × α} (hentry : entry ∈ insert d key value) :
    entry = (key, value) ∨ (entry ∈ d ∧ entry.1 ≠ key) := by
  unfold Sorted at h
  induction d with
  | nil => simpa using hentry
  | cons first rest ih =>
      rcases first with ⟨name, old⟩
      rcases List.pairwise_cons.1 h with ⟨hfirst, hrest⟩
      simp only [insert] at hentry
      -- The key comes before the first name, is this name, or comes after it.
      split at hentry
      · next hlt =>
        rcases List.mem_cons.1 hentry with rfl | hentry
        · exact Or.inl rfl
        · refine Or.inr ⟨hentry, ?_⟩
          rcases List.mem_cons.1 hentry with rfl | hlater
          · exact ne_of_gt hlt
          · exact ne_of_gt (lt_trans hlt (hfirst entry hlater))
      · split at hentry
        · next heq =>
          subst heq
          rcases List.mem_cons.1 hentry with rfl | hentry
          · exact Or.inl rfl
          · exact Or.inr ⟨List.mem_cons_of_mem _ hentry, ne_of_gt (hfirst entry hentry)⟩
        · next hne =>
          rcases List.mem_cons.1 hentry with rfl | hentry
          · exact Or.inr ⟨List.mem_cons_self, hne⟩
          · rcases ih hrest hentry with hnew | ⟨hold, hother⟩
            · exact Or.inl hnew
            · exact Or.inr ⟨List.mem_cons_of_mem _ hold, hother⟩

/-- Names in strict order are distinct. -/
theorem nodup_keys {d : Dict α} (h : Sorted d) : (keys d).Nodup := by
  refine List.pairwise_map.2 (h.imp fun hlt => ?_)
  exact ne_of_lt hlt

/-- A dictionary that is made from a list is in order, whatever the list was. -/
theorem sorted_ofList (bindings : List (String × α)) : Sorted (ofList bindings) := by
  unfold ofList
  refine List.foldlRecOn bindings _ List.Pairwise.nil fun d hd binding _ => ?_
  exact sorted_insert hd _ _

/-- Every entry stems from the list. -/
theorem mem_of_mem_ofList {bindings : List (String × α)} {entry : String × α} :
    entry ∈ ofList bindings → entry ∈ bindings := by
  unfold ofList
  refine List.foldlRecOn (motive := fun d => entry ∈ d → entry ∈ bindings) bindings _ (by simp) ?_
  intro d hd binding hbinding hentry
  rcases mem_of_mem_insert hentry with rfl | hold
  · exact hbinding
  · exact hd hold

/-- Among entries of different names every entry is found by its name. -/
theorem get?_of_mem {d : Dict α} (h : (keys d).Nodup) {entry : String × α} (hentry : entry ∈ d) :
    get? d entry.1 = some entry.2 := by
  induction d with
  | nil => cases hentry
  | cons first rest ih =>
      rcases first with ⟨name, value⟩
      rcases List.nodup_cons.1 h with ⟨hfresh, hrest⟩
      rcases List.mem_cons.1 hentry with rfl | hlater
      · simp [get?]
      · have hne : name ≠ entry.1 := by
          rintro rfl
          exact hfresh (List.mem_map.2 ⟨entry, hlater, rfl⟩)
        simpa [get?, hne] using ih hrest hlater

/-- Bindings of different names are found as they are listed. -/
theorem get?_ofList {bindings : List (String × α)} (h : (keys bindings).Nodup) (key : String) :
    get? (ofList bindings) key = get? bindings key := by
  -- On the way a name is looked up among the bindings to come, then among those that were made.
  suffices hfold : ∀ d : Dict α,
      get? (bindings.foldl (fun d binding => insert d binding.1 binding.2) d) key =
        (get? bindings key).or (get? d key) by
    simpa [ofList] using hfold []
  induction bindings with
  | nil => simp
  | cons binding rest ih =>
      rcases binding with ⟨name, value⟩
      rcases List.nodup_cons.1 h with ⟨hfresh, hrest⟩
      intro d
      rw [List.foldl_cons, ih hrest, get?_insert]
      by_cases hname : name = key
      · simp [get?, hname, get?_eq_none (hname ▸ hfresh)]
      · simp [get?, hname]

/-- A name after all others is put at the end. -/
theorem insert_last {d : Dict α} {key : String} (h : ∀ entry ∈ d, entry.1 < key) (value : α) :
    insert d key value = d ++ [(key, value)] := by
  induction d with
  | nil => rfl
  | cons first rest ih =>
      rcases first with ⟨name, old⟩
      have hfirst : name < key := h _ List.mem_cons_self
      have hrest := ih fun entry hentry => h entry (List.mem_cons_of_mem _ hentry)
      simp [insert, not_lt_of_gt hfirst, ne_of_lt hfirst, hrest]

/-- Bindings in order are a dictionary as they are. -/
theorem ofList_eq {d : Dict α} (h : Sorted d) : ofList d = d := by
  suffices hfold : ∀ before : Dict α, Sorted (before ++ d) →
      d.foldl (fun d binding => insert d binding.1 binding.2) before = before ++ d from
    hfold [] h
  clear h
  induction d with
  | nil => simp
  | cons binding rest ih =>
      intro before hbefore
      have hlast : insert before binding.1 binding.2 = before ++ [binding] := by
        refine insert_last (fun entry hentry => ?_) binding.2
        exact (List.pairwise_append.1 hbefore).2.2 entry hentry binding List.mem_cons_self
      rw [List.foldl_cons, hlast, ih _ (by simpa using hbefore)]
      simp

end Dict
end StoryPlayer
