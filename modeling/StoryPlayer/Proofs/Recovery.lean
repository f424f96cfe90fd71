import StoryPlayer.Proofs.Encoding
import StoryPlayer.Proofs.Reading

/-!
# Saves that are read from their texts

The numbers in variables may be read from a text as other ones, or not at all.  Nothing else that
matters for the choice of a save may change, since a reader that meets another number than it
expects refuses the whole save.

- `Json.Recovers` says what a reader that accepts the text of a document has recovered of it,
- `Snapshot.Keeps` says that two saves agree on the choice, on the places of all frames, and on what
  has been used,
- `Snapshot.keeps_of_decode` shows that every save agrees with what is read from its text.
-/

namespace StoryPlayer
namespace Json

/-! ## Parts of documents -/

theorem keys_rereadMembers (members : List (String × Json)) :
    Dict.keys (rereadMembers members) = Dict.keys members := by
  simp [Dict.keys, rereadMembers_eq, Function.comp_def]

/-- A member is found under its name after it was printed and read. -/
theorem get?_rereadMembers (members : List (String × Json)) (name : String) :
    Dict.get? (rereadMembers members) name = (Dict.get? members name).map reread := by
  induction members with
  | nil => rfl
  | cons member rest ih =>
      rcases member with ⟨first, value⟩
      by_cases hname : first = name
      · simp [rereadMembers, Dict.get?, hname]
      · simp [rereadMembers, Dict.get?, hname, ih]

/-- What is read from the text of the document has the property. -/
def Recovers {α : Type} (read : Json → Option α) (j : Json) (P : α → Prop) : Prop :=
  ∀ x, read (canonical j.reread) = some x → P x

/-- A record is read from the sorted members of what its text says. -/
theorem recovers_record {α : Type} {read : Json → Option α} {P : α → Prop}
    {members : List (String × Json)} (hnames : (Dict.keys members).Nodup)
    (hread : ∀ sorted, Record (rereadMembers members) sorted →
      ∀ x, read (.object sorted) = some x → P x) : Recovers read (.object members) P := by
  intro x hx
  rw [← keys_rereadMembers] at hnames
  rcases exists_record hnames with ⟨sorted, hcanonical, hrecord⟩
  apply hread sorted hrecord
  rw [← hcanonical]
  exact hx

namespace Record

variable {α : Type} {members : List (String × Json)} {sorted : Dict Json}
  {read : Json → Option α} {P : α → Prop} {x : α} {j : Json}

/-- What is read from a member is what a reader recovers from its document. -/
theorem recovered (h : Record (rereadMembers members) sorted) (name : String)
    (hget : Dict.get? members name = some j) (hread : Recovers read j P)
    (hx : Json.required sorted name read = some x) : P x := by
  apply hread
  simpa [Json.required, h.member?, get?_rereadMembers, hget] using hx

theorem recovered_defaulted (h : Record (rereadMembers members) sorted) (name : String)
    (fallback : α) (hget : Dict.get? members name = some j) (hread : Recovers read j P)
    (hx : Json.defaulted sorted name fallback read = some x) : P x := by
  apply hread
  simpa [Json.defaulted, h.member?, get?_rereadMembers, hget] using hx

end Record

/-! ## Plain parts -/

/-- A text is recovered as it was. -/
theorem recovers_text (s : String) : Recovers asText (.text s) (· = s) := by
  intro x hx
  exact (Option.some.inj hx).symm

/-- A whole number that does not fit is not read as another one. -/
theorem recovers_nat (n : Nat) : Recovers asNat64 (nat n) (· = n) := by
  intro m hm
  have hsame : canonical (nat n).reread =
      Numeral.toJson ⟨false, Decimal.digitChars n, none, none⟩ := by
    rw [nat, reread, reread_natural, Numeral.toJson]
    split <;> rfl
  rw [hsame] at hm
  exact asNat64_natural hm

theorem recovers_uint64 (n : UInt64) : Recovers asUInt64 (.nat n.toNat) (· = n) := by
  intro m hm
  rcases Option.map_eq_some_iff.1 hm with ⟨found, hfound, rfl⟩
  rw [recovers_nat n.toNat found hfound, UInt64.ofNat_toNat]

section Lists

variable {α β : Type} {read : Json → Option β} {write : α → Json} {P : α → β → Prop}

/-- The items are recovered one by one. -/
theorem recovers_list {xs : List α} (h : ∀ x ∈ xs, Recovers read (write x) (P x)) :
    Recovers (asList read) (.list (xs.map write)) (List.Forall₂ P xs) := by
  intro ys hys
  rw [reread, rereadItems_eq, canonical, canonicalItems_eq, List.map_map, List.map_map] at hys
  have hparts := List.forall₂_map_left_iff.1 (forall₂_of_mapM hys)
  have hall : ∀ x ∈ xs, ∀ y, read (canonical (write x).reread) = some y → P x y := h
  clear hys h
  induction hparts with
  | nil => exact List.Forall₂.nil
  | cons hfirst _ ih =>
      apply List.Forall₂.cons
      · exact hall _ List.mem_cons_self _ hfirst
      · exact ih fun other hother => hall other (List.mem_cons_of_mem _ hother)

end Lists

/-- Of a document that is printed without loss everything is recovered. -/
theorem Restores.recovers {α : Type} {read : Json → Option α} {j : Json} {x : α}
    (h : Restores read j x) (hj : Faithful j) : Recovers read j (· = x) := by
  intro y hy
  rw [hj.reread, h] at hy
  exact (Option.some.inj hy).symm

end Json

open Json (Recovers)

/-! ## Parts of a save -/

/-- The frames have the same number and stand at the same node. -/
structure Frame.SamePlace (f g : Frame) : Prop where
  id : g.id = f.id
  group : g.group = f.group
  node : g.node = f.node

/-- Of a frame at least the number and the place are recovered, whatever becomes of its variables.
-/
theorem Frame.recovers (f : Frame) : Recovers Frame.ofJson f.toJson f.SamePlace := by
  refine Json.recovers_record (show ["frameId", "groupId", "nodeIndex", "scope", "varTypes",
    "completion", "scriptRoot", "returnContinuation"].Nodup by decide) ?_
  intro sorted hrecord g hg
  rcases Option.bind_eq_some_iff.1 hg with ⟨id, hid, hg⟩
  rcases Option.bind_eq_some_iff.1 hg with ⟨group, hgroup, hg⟩
  rcases Option.bind_eq_some_iff.1 hg with ⟨node, hnode, hg⟩
  rcases Option.bind_eq_some_iff.1 hg with ⟨scope, -, hg⟩
  rcases Option.bind_eq_some_iff.1 hg with ⟨types, -, hg⟩
  rcases Option.bind_eq_some_iff.1 hg with ⟨completion, -, hg⟩
  rcases Option.bind_eq_some_iff.1 hg with ⟨root, -, hg⟩
  rcases Option.bind_eq_some_iff.1 hg with ⟨continuation, -, hg⟩
  cases hg
  have hid' := hrecord.recovered "frameId" rfl (Json.recovers_uint64 f.id) hid
  have hgroup' := hrecord.recovered "groupId" rfl (Json.recovers_text f.group) hgroup
  have hnode' := hrecord.recovered "nodeIndex" rfl (Json.recovers_nat f.node) hnode
  exact ⟨hid', hgroup', hnode'⟩

/-- An item is recovered as it was. -/
theorem ChoiceItem.recovers (i : ChoiceItem) : Recovers ChoiceItem.ofJson i.toJson (· = i) := by
  refine Json.recovers_record (show ["index", "id", "text"].Nodup by decide) ?_
  intro sorted hrecord other hother
  rcases Option.bind_eq_some_iff.1 hother with ⟨index, hindex, hother⟩
  rcases Option.bind_eq_some_iff.1 hother with ⟨id, hid, hother⟩
  rcases Option.bind_eq_some_iff.1 hother with ⟨text, htext, hother⟩
  cases hother
  rw [hrecord.recovered "index" rfl (Json.recovers_nat i.index) hindex,
    hrecord.recovered "id" rfl (Json.recovers_text i.id) hid,
    hrecord.recovered "text" rfl (Json.recovers_text i.text) htext]

/-! ## Whole saves -/

namespace Snapshot

/-- The saves agree on the choice, on the places of all frames, and on what has been used. -/
structure Keeps (s read : Snapshot) : Prop where
  frames : List.Forall₂ Frame.SamePlace s.frames read.frames
  choice : read.choice = s.choice
  items : read.items = s.items
  once : read.once = s.once

variable {s read : Snapshot}

/-- Of a save at least the places of frames, the choice and what has been used are recovered, whatever
becomes of its variables. -/
theorem recovers (hsorted : Dict.Sorted s.once) : Recovers ofJson s.toJson s.Keeps := by
  refine Json.recovers_record s.names_nodup ?_
  intro sorted hrecord read hread
  rcases Option.bind_eq_some_iff.1 hread with ⟨schema, -, hread⟩
  rcases Option.bind_eq_some_iff.1 hread with ⟨version, -, hread⟩
  rcases Option.bind_eq_some_iff.1 hread with ⟨cursor, -, hread⟩
  rcases Option.bind_eq_some_iff.1 hread with ⟨frames, hframes, hread⟩
  rcases Option.bind_eq_some_iff.1 hread with ⟨scopes, -, hread⟩
  rcases Option.bind_eq_some_iff.1 hread with ⟨continuations, -, hread⟩
  rcases Option.bind_eq_some_iff.1 hread with ⟨rng, -, hread⟩
  rcases Option.bind_eq_some_iff.1 hread with ⟨waiting, -, hread⟩
  rcases Option.bind_eq_some_iff.1 hread with ⟨choice, hchoice, hread⟩
  rcases Option.bind_eq_some_iff.1 hread with ⟨items, hitems, hread⟩
  rcases Option.bind_eq_some_iff.1 hread with ⟨prompt, -, hread⟩
  rcases Option.bind_eq_some_iff.1 hread with ⟨once, honce, hread⟩
  cases hread
  have hitems' : List.Forall₂ (flip Eq) s.items items := hrecord.recovered "pendingChoiceItems" rfl
    (Json.recovers_list fun i _ => ChoiceItem.recovers i) hitems
  have hsame : items = s.items := by
    rw [← List.forall₂_eq_eq_eq]
    exact hitems'.flip
  have hmarks : Json.Faithful (Dict.toJson (fun marks => .list (marks.map .text)) s.once) :=
    faithful_dict fun entry _ => faithful_texts entry.2
  have honce' := (Json.restores_dict hsorted fun entry _ => restores_texts entry.2).recovers hmarks
  have hframes' := hrecord.recovered "runtimeFrames" rfl
    (Json.recovers_list fun f _ => Frame.recovers f) hframes
  have hchoice' := hrecord.recovered "pendingChoiceNodeId" rfl (Json.recovers_text s.choice) hchoice
  have hused := hrecord.recovered_defaulted "onceStateByScript" [] rfl honce' honce
  exact ⟨hframes', hchoice', hsame, hused⟩

/-- What is read from the text of a save agrees with the save, whatever becomes of its numbers. -/
theorem keeps_of_decode (hsorted : Dict.Sorted s.once) (h : decode s.encode = .ok read) :
    s.Keeps read := by
  unfold decode at h
  split at h
  · cases h
  · next j hparse =>
    -- The document that is read is the one that was printed, but for its numbers.
    rcases Option.map_eq_some_iff.1 hparse with ⟨found, hfound, rfl⟩
    rw [encode, Json.parse, Json.parseForm_print] at hfound
    have hsame := (Json.of_whole hfound).2
    obtain rfl := Option.some.inj hsame
    unfold ofJsonChecked at h
    split at h
    · cases h
    · split at h
      · next hread =>
        cases h
        exact recovers hsorted read hread
      · cases h

end Snapshot
end StoryPlayer
