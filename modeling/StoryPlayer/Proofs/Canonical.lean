import StoryPlayer.Json.Fields
import StoryPlayer.Proofs.Dict
import StoryPlayer.Script.Codec

/-!
# Reading canonical documents

A save is read from a document with sorted members.  Since the names in a record differ, sorting
loses none of its members.

- `Restores` says that a reader gets a thing back from the canonical form of a document,
- `Record` relates the members of a record to the sorted ones,
- there is a lemma for every reader of members, lists and dictionaries.

The last section bounds the nesting of documents by that of their parts.
-/

namespace StoryPlayer
namespace Json

/-- The thing is read from the canonical form of the document. -/
def Restores {α : Type} (read : Json → Option α) (j : Json) (x : α) : Prop :=
  read (canonical j) = some x

/-! ## Lists and dictionaries -/

/-- The helper of `canonical` for lists is a map. -/
theorem canonicalItems_eq (items : List Json) : canonicalItems items = items.map canonical := by
  induction items with
  | nil => rfl
  | cons item rest ih => simp [canonicalItems, ih]

/-- The helper of `canonical` for members is a map that keeps the names. -/
theorem canonicalMembers_eq (members : List (String × Json)) :
    canonicalMembers members = members.map fun member => (member.1, canonical member.2) := by
  induction members with
  | nil => rfl
  | cons member rest ih => simp [canonicalMembers, ih]

theorem keys_canonicalMembers (members : List (String × Json)) :
    Dict.keys (canonicalMembers members) = Dict.keys members := by
  simp [Dict.keys, canonicalMembers_eq, Function.comp_def]

theorem get?_canonicalMembers (members : List (String × Json)) (name : String) :
    Dict.get? (canonicalMembers members) name = (Dict.get? members name).map canonical := by
  induction members with
  | nil => rfl
  | cons member rest ih =>
      rcases member with ⟨first, value⟩
      by_cases hname : first = name
      · simp [canonicalMembers, Dict.get?, hname]
      · simp [canonicalMembers, Dict.get?, hname, ih]

/-- A reader that gives back what was written gives back a whole list. -/
theorem mapM_eq_some {α β : Type} {f : α → Option β} {g : β → α} {xs : List β}
    (h : ∀ x ∈ xs, f (g x) = some x) : (xs.map g).mapM f = some xs := by
  induction xs with
  | nil => rfl
  | cons x rest ih =>
      have hx := h x List.mem_cons_self
      have hrest := ih fun other hother => h other (List.mem_cons_of_mem _ hother)
      rw [List.map_cons, List.mapM_cons, hx, hrest]
      rfl

section Collections

variable {α : Type} {read : Json → Option α} {write : α → Json}

/-- A list of things that are read back is read back. -/
theorem restores_list {xs : List α} (h : ∀ x ∈ xs, Restores read (write x) x) :
    Restores (asList read) (.list (xs.map write)) xs := by
  have hitems : canonical (.list (xs.map write)) = .list (xs.map fun x => canonical (write x)) := by
    simp [canonical, canonicalItems_eq, Function.comp_def]
  unfold Restores
  rw [hitems]
  exact mapM_eq_some h

/-- The members of a dictionary are in order already. -/
theorem canonical_dict {d : Dict α} (hsorted : Dict.Sorted d) :
    canonical (Dict.toJson write d) =
      .object (d.map fun entry => (entry.1, canonical (write entry.2))) := by
  have hmembers : canonicalMembers (d.map fun entry => (entry.1, write entry.2)) =
      d.map fun entry => (entry.1, canonical (write entry.2)) := by
    simp [canonicalMembers_eq, Function.comp_def]
  have hsorted' : Dict.Sorted (d.map fun entry => (entry.1, canonical (write entry.2))) :=
    List.pairwise_map.2 hsorted
  simp [Dict.toJson, canonical, hmembers, Dict.ofList_eq hsorted']

/-- A sorted dictionary of things that are read back is read back. -/
theorem restores_dict {d : Dict α} (hsorted : Dict.Sorted d)
    (h : ∀ entry ∈ d, Restores read (write entry.2) entry.2) :
    Restores (asDict read) (Dict.toJson write d) d := by
  have hentries : (d.map fun entry => (entry.1, canonical (write entry.2))).mapM
      (fun member => (read member.2).map fun value => (member.1, value)) = some d := by
    refine mapM_eq_some fun entry hentry => ?_
    rw [h entry hentry]
    rfl
  unfold Restores
  rw [canonical_dict hsorted]
  simp [asDict, hentries, Dict.ofList_eq hsorted]

end Collections

/-! ## Records -/

/-- The members `sorted` are those of a record, in canonical form. -/
structure Record (members : List (String × Json)) (sorted : Dict Json) : Prop where
  get? : ∀ name, Dict.get? sorted name = (Dict.get? members name).map canonical
  once : (Dict.keys sorted).Nodup

/-- A record with different names keeps all its members when they are sorted. -/
theorem exists_record {members : List (String × Json)} (hnames : (Dict.keys members).Nodup) :
    ∃ sorted, canonical (.object members) = .object sorted ∧ Record members sorted := by
  have hnames' : (Dict.keys (canonicalMembers members)).Nodup := by
    rwa [keys_canonicalMembers]
  refine ⟨Dict.ofList (canonicalMembers members), by rw [canonical], fun name => ?_,
    Dict.nodup_keys (Dict.sorted_ofList _)⟩
  rw [Dict.get?_ofList hnames', get?_canonicalMembers]

/-- To read a record back it is enough to look at its members by name: their order is lost in the
canonical form. -/
theorem restores_record {α : Type} {read : Json → Option α} {x : α}
    {members : List (String × Json)} (hnames : (Dict.keys members).Nodup)
    (hread : ∀ sorted, Record members sorted → canonical (.object members) = .object sorted →
      read (.object sorted) = some x) :
    Restores read (.object members) x := by
  rcases exists_record hnames with ⟨sorted, hcanonical, hrecord⟩
  unfold Restores
  rw [hcanonical]
  exact hread sorted hrecord hcanonical

/-- A member whose name is not repeated is the one that is looked up. -/
theorem member?_eq {members : List (String × Json)} (h : (Dict.keys members).Nodup)
    (name : String) : member? members name = some (Dict.get? members name) := by
  have hfound : occurrences members name = (Dict.get? members name).toList := by
    induction members with
    | nil => rfl
    | cons member rest ih =>
        rcases member with ⟨first, value⟩
        rcases List.nodup_cons.1 h with ⟨hfresh, hrest⟩
        have hrest' := ih hrest
        unfold occurrences at hrest' ⊢
        by_cases hname : first = name
        · subst hname
          -- There is no second member of the name.
          have hnone : rest.filter (fun member => member.1 == first) = [] := by
            refine List.filter_eq_nil_iff.2 fun member hmember heq => hfresh ?_
            exact List.mem_map.2 ⟨member, hmember, by simpa using heq⟩
          simp [Dict.get?, hnone]
        · simp [Dict.get?, hname, hrest']
  unfold member?
  rw [hfound]
  cases Dict.get? members name <;> rfl

namespace Record

variable {α : Type} {members : List (String × Json)} {sorted : Dict Json}
  {read : Json → Option α} {write : α → Json} {x : α} {j : Json}

/-- A member is found under its name, in canonical form. -/
theorem member? (h : Record members sorted) (name : String) :
    Json.member? sorted name = some ((Dict.get? members name).map canonical) := by
  rw [member?_eq h.once, h.get?]

/-- A member that is there is read back. -/
theorem required (h : Record members sorted) (name : String)
    (hget : Dict.get? members name = some j) (hread : Restores read j x) :
    Json.required sorted name read = some x := by
  simp only [Json.required, h.member?, hget, Option.map_some]
  exact hread

/-- A member that is written is read back; the default plays no part. -/
theorem defaulted (h : Record members sorted) (name : String) (fallback : α)
    (hget : Dict.get? members name = some j) (hread : Restores read j x) :
    Json.defaulted sorted name fallback read = some x := by
  simp only [Json.defaulted, h.member?, hget, Option.map_some]
  exact hread

/-- A member that may be `null`; nothing else is written as `null`. -/
theorem optional {found : Option α} (h : Record members sorted) (name : String)
    (hget : Dict.get? members name = some (.ofOption (found.map write)))
    (hnull : ∀ x ∈ found, canonical (write x) ≠ .null)
    (hread : ∀ x ∈ found, Restores read (write x) x) :
    Json.optional sorted name read = some found := by
  simp only [Json.optional, h.member?, hget, Option.map_some]
  cases found with
  | none => rfl
  | some x =>
      have hx : read (canonical (write x)) = some x := hread x rfl
      have hne := hnull x rfl
      simp only [Option.map_some, ofOption]
      rw [hx]
      rfl

end Record

/-! ## Nesting -/

@[simp] theorem depth_text (s : String) : (Json.text s).depth = 0 := rfl

@[simp] theorem depth_bool (b : Bool) : (Json.bool b).depth = 0 := rfl

@[simp] theorem depth_nat (n : Nat) : (nat n).depth = 0 := rfl

theorem depth_lt_of_mem_members {members : List (String × Json)} {member : String × Json}
    (h : member ∈ members) : member.2.depth < (Json.object members).depth := by
  rw [depth]
  induction members with
  | nil => cases h
  | cons first rest ih =>
      rcases first with ⟨name, value⟩
      rw [depthMembers]
      rcases List.mem_cons.1 h with rfl | h
      · change value.depth < _
        omega
      · have hrest := ih h
        omega

theorem depth_lt_of_mem_items {items : List Json} {item : Json} (h : item ∈ items) :
    item.depth < (Json.list items).depth := by
  rw [depth]
  induction items with
  | nil => cases h
  | cons first rest ih =>
      rw [depthItems]
      rcases List.mem_cons.1 h with rfl | h
      · omega
      · have hrest := ih h
        omega

/-- What is directly inside of a document is nested less deep. -/
theorem depth_lt_of_mem_parts {j part : Json} (h : part ∈ j.parts) : part.depth < j.depth := by
  cases j with
  | list items => exact depth_lt_of_mem_items h
  | object members =>
      rcases List.mem_map.1 h with ⟨member, hmember, rfl⟩
      exact depth_lt_of_mem_members hmember
  | _ => cases h

/-- The members of a record are nested less deep than the record. -/
theorem Record.depth_lt {members : List (String × Json)} {sorted : Dict Json} {j : Json}
    (h : Record members sorted) (name : String) (hget : Dict.get? members name = some j) :
    (canonical j).depth < (Json.object sorted).depth := by
  have hfound : Dict.get? sorted name = some (canonical j) := by
    rw [h.get?, hget]
    rfl
  exact depth_lt_of_mem_members (Dict.mem_of_get? hfound)

theorem depth_list_le {items : List Json} {n : Nat} (h : ∀ item ∈ items, item.depth ≤ n) :
    (Json.list items).depth ≤ n + 1 := by
  rw [depth]
  induction items with
  | nil => simp [depthItems]
  | cons item rest ih =>
      have hitem := h item List.mem_cons_self
      have hrest := ih fun other hother => h other (List.mem_cons_of_mem _ hother)
      rw [depthItems]
      omega

theorem depth_map_list_le {α : Type} {write : α → Json} {xs : List α} {n : Nat}
    (h : ∀ x ∈ xs, (write x).depth ≤ n) : (Json.list (xs.map write)).depth ≤ n + 1 := by
  refine depth_list_le fun item hitem => ?_
  rcases List.mem_map.1 hitem with ⟨x, hx, rfl⟩
  exact h x hx

/-- An object adds one level to its members. -/
theorem depth_object_le {members : List (String × Json)} {n : Nat}
    (h : ∀ member ∈ members, member.2.depth ≤ n) : (Json.object members).depth ≤ n + 1 := by
  rw [depth]
  induction members with
  | nil => simp [depthMembers]
  | cons member rest ih =>
      rcases member with ⟨name, value⟩
      have hvalue : value.depth ≤ n := h _ List.mem_cons_self
      have hrest := ih fun other hother => h other (List.mem_cons_of_mem _ hother)
      rw [depthMembers]
      omega

/-- A dictionary adds one level to what is written for its entries. -/
theorem depth_dict_le {α : Type} {write : α → Json} {d : Dict α} {n : Nat}
    (h : ∀ entry ∈ d, (write entry.2).depth ≤ n) : (Dict.toJson write d).depth ≤ n + 1 := by
  refine depth_object_le fun member hmember => ?_
  rcases List.mem_map.1 hmember with ⟨entry, hentry, rfl⟩
  exact h entry hentry

end Json
end StoryPlayer
