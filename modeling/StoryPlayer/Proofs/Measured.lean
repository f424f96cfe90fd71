import StoryPlayer.Json.Reader

/-!
# Sizes of documents

A text of `n` characters holds no list of more than `n` items.

- `Json.Leaves` says that a reader takes characters from the front and leaves the rest,
- `Json.Narrow` bounds the length of all lists in a document,
- `narrow_of_parseForm` bounds it by the length of the text.
-/

namespace StoryPlayer
namespace Json

/-! ## Readers of parts -/

/-- What is left over is the end of what there was. -/
def Leaves {α : Type} (read : List Char → Option (α × List Char)) : Prop :=
  ∀ cs x rest, read cs = some (x, rest) → rest <:+ cs

/-- Blanks are dropped from the front. -/
theorem skipSpace_suffix (cs : List Char) : skipSpace cs <:+ cs :=
  List.dropWhile_suffix _

/-- A character after blanks. -/
theorem suffix_of_skipSpace {c : Char} {cs rest : List Char} (h : skipSpace cs = c :: rest) :
    c :: rest <:+ cs :=
  h ▸ skipSpace_suffix cs

/-- What follows the digits is the end of the characters. -/
theorem suffix_of_takeDigits {cs digits rest : List Char} (h : takeDigits cs = (digits, rest)) :
    rest <:+ cs := by
  obtain rfl : cs.dropWhile Char.isDigit = rest := congrArg Prod.snd h
  exact List.dropWhile_suffix _

theorem leaves_readWhole : Leaves readWhole := by
  intro cs x rest h
  unfold readWhole at h
  split at h
  · cases h
  · cases h
  · next hdigits =>
    cases h
    exact suffix_of_takeDigits hdigits

theorem leaves_readFraction : Leaves readFraction := by
  intro cs x rest h
  unfold readFraction at h
  split at h
  · split at h
    · cases h
    · next hdigits =>
      cases h
      exact (suffix_of_takeDigits hdigits).trans (List.suffix_cons _ _)
  · cases h
    exact List.suffix_refl _

theorem leaves_readExponentDigits (below : Bool) : Leaves (readExponentDigits below) := by
  intro cs x rest h
  unfold readExponentDigits at h
  split at h
  · cases h
  · next hdigits =>
    cases h
    exact suffix_of_takeDigits hdigits

theorem leaves_readExponent : Leaves readExponent := by
  intro cs x rest h
  unfold readExponent at h
  split at h
  · next mark after =>
    split at h
    · -- The mark and a sign are dropped before the digits.
      have hmark := List.suffix_cons mark after
      split at h
      · have hdigits := leaves_readExponentDigits _ _ _ _ h
        exact (hdigits.trans (List.suffix_cons _ _)).trans hmark
      · have hdigits := leaves_readExponentDigits _ _ _ _ h
        exact (hdigits.trans (List.suffix_cons _ _)).trans hmark
      · exact (leaves_readExponentDigits _ _ _ _ h).trans hmark
    · cases h
      exact List.suffix_refl _
  · cases h
    exact List.suffix_refl _

/-- A number takes characters from the front only. -/
theorem leaves_readUnsigned (negative : Bool) : Leaves (readUnsigned negative) := by
  intro cs x rest h
  rcases Option.bind_eq_some_iff.1 h with ⟨⟨whole, afterWhole⟩, hwhole, h⟩
  rcases Option.bind_eq_some_iff.1 h with ⟨⟨fraction, afterFraction⟩, hfraction, h⟩
  rcases Option.bind_eq_some_iff.1 h with ⟨⟨exponent, afterExponent⟩, hexponent, h⟩
  cases h
  have hfirst := leaves_readWhole _ _ _ hwhole
  have hsecond := leaves_readFraction _ _ _ hfraction
  have hthird := leaves_readExponent _ _ _ hexponent
  exact (hthird.trans hsecond).trans hfirst

theorem leaves_readNumber : Leaves readNumber := by
  intro cs x rest h
  unfold readNumber at h
  split at h
  · exact (leaves_readUnsigned _ _ _ _ h).trans (List.suffix_cons _ _)
  · exact leaves_readUnsigned _ _ _ _ h

theorem leaves_readEscape : Leaves readEscape := by
  intro cs x rest h
  unfold readEscape at h
  split at h
  case h_6 a b c d after =>
    rcases Option.map_eq_some_iff.1 h with ⟨n, -, heq⟩
    cases heq
    exact List.suffix_append ['u', a, b, c, d] rest
  case h_7 =>
    split at h
    · cases h
      exact List.suffix_cons _ _
    · cases h
  case h_8 => cases h
  all_goals
    cases h
    exact List.suffix_cons _ _

/-- A text takes characters from the front only. -/
theorem leaves_readText (fuel : Nat) (acc : List TextUnit) : Leaves (readText fuel acc) := by
  intro cs x rest h
  induction fuel generalizing acc cs with
  | zero => cases h
  | succ fuel ih =>
      cases cs with
      | nil => cases h
      | cons c after =>
          have hc := List.suffix_cons c after
          simp only [readText] at h
          split at h
          · cases h
            exact hc
          · split at h
            · split at h
              · next hescape =>
                have hafter := leaves_readEscape _ _ _ hescape
                exact ((ih _ _ h).trans hafter).trans hc
              · cases h
            · split at h
              · cases h
              · exact (ih _ _ h).trans hc

theorem leaves_readQuoted : Leaves readQuoted := by
  intro cs x rest h
  rcases Option.map_eq_some_iff.1 h with ⟨⟨units, after⟩, htext, heq⟩
  cases heq
  exact leaves_readText _ _ _ _ _ htext

/-! ## Documents -/

/-- No list in the document has more than `n` items. -/
inductive Narrow (n : Nat) : Json → Prop
  | null : Narrow n .null
  | bool (b : Bool) : Narrow n (.bool b)
  | number (x : Number) : Narrow n (.number x)
  | text (s : String) : Narrow n (.text s)
  | list {items : List Json} :
      items.length ≤ n → (∀ item ∈ items, Narrow n item) → Narrow n (.list items)
  | object {members : List (String × Json)} :
      (∀ member ∈ members, Narrow n member.2) → Narrow n (.object members)
  | unreadable : Narrow n .unreadable

theorem narrow_of_readNumber {n : Nat} {cs rest : List Char} {j : Json}
    (h : readNumber cs = some (j, rest)) : j.Narrow n := by
  -- A number, or a numeral that stands for none.
  have hunsigned : ∀ negative cs, readUnsigned negative cs = some (j, rest) → j.Narrow n := by
    intro negative cs h
    rcases Option.bind_eq_some_iff.1 h with ⟨_, -, h⟩
    rcases Option.bind_eq_some_iff.1 h with ⟨_, -, h⟩
    rcases Option.bind_eq_some_iff.1 h with ⟨_, -, h⟩
    cases h
    unfold Numeral.toJson
    split
    · exact .number _
    · exact .unreadable
  unfold readNumber at h
  split at h
  · exact hunsigned _ _ h
  · exact hunsigned _ _ h

theorem narrow_of_readWord {n : Nat} {word : String} {value j : Json} {cs rest : List Char}
    (hvalue : value.Narrow n) (h : readWord word value cs = some (j, rest)) :
    j.Narrow n ∧ rest <:+ cs := by
  simp only [readWord] at h
  split at h
  · cases h
    exact ⟨hvalue, List.drop_suffix _ _⟩
  · cases h

/-- An object is narrow if the values of its members are. -/
theorem narrow_ofMembers {n : Nat} {members : List (Option String × Json)}
    (h : ∀ member ∈ members, member.2.Narrow n) : (ofMembers members).Narrow n := by
  unfold ofMembers
  split
  · next named hnamed =>
    refine .object ?_
    induction members generalizing named with
    | nil =>
        cases hnamed
        simp
    | cons member rest ih =>
        rw [List.mapM_cons] at hnamed
        rcases Option.bind_eq_some_iff.1 hnamed with ⟨first, hfirst, hnamed⟩
        rcases Option.bind_eq_some_iff.1 hnamed with ⟨others, hothers, heq⟩
        cases heq
        rcases Option.map_eq_some_iff.1 hfirst with ⟨name, -, rfl⟩
        intro entry hentry
        rcases List.mem_cons.1 hentry with rfl | hlater
        · exact h member List.mem_cons_self
        · exact ih (fun other hother => h other (List.mem_cons_of_mem _ hother)) _ hothers
            entry hlater
  · exact .unreadable

/-- With the fuel, readers give narrow documents and leave the end of the characters.  Every item
takes a character at least: the comma or the bracket after it. -/
structure Measures (n fuel : Nat) : Prop where
  value : ∀ {cs rest j}, cs.length ≤ n → readValue fuel cs = some (j, rest) →
    j.Narrow n ∧ rest <:+ cs
  items : ∀ {cs rest items}, cs.length ≤ n → readItems fuel cs = some (items, rest) →
    (∀ item ∈ items, item.Narrow n) ∧ items.length + rest.length ≤ cs.length ∧ rest <:+ cs
  members : ∀ {cs rest members}, cs.length ≤ n → readMembers fuel cs = some (members, rest) →
    (∀ member ∈ members, member.2.Narrow n) ∧ rest <:+ cs

theorem forall_mem_cons_narrow {n : Nat} {item : Json} {items : List Json} (hitem : item.Narrow n)
    (h : ∀ item ∈ items, item.Narrow n) : ∀ other ∈ item :: items, other.Narrow n := by
  intro other hother
  rcases List.mem_cons.1 hother with rfl | hother
  · exact hitem
  · exact h other hother

namespace Measures

variable {n fuel : Nat} {cs rest : List Char}

/-- One more unit of fuel: a value is one of its parts, each measured with less. -/
theorem readValue (h : Measures n fuel) (hcs : cs.length ≤ n) {j : Json}
    (hread : Json.readValue (fuel + 1) cs = some (j, rest)) : j.Narrow n ∧ rest <:+ cs := by
  simp only [Json.readValue] at hread
  -- The cases are the first characters: a bracket, a brace, the letter of a word, and what else may
  -- begin a text or a number.
  split at hread
  case h_1 after hspace =>
    have hafter := (List.suffix_cons _ _).trans (suffix_of_skipSpace hspace)
    split at hread
    · next hclosed =>
      cases hread
      have hrest := (List.suffix_cons _ _).trans (suffix_of_skipSpace hclosed)
      exact ⟨.list (Nat.zero_le n) (by simp), hrest.trans hafter⟩
    · rcases Option.map_eq_some_iff.1 hread with ⟨⟨items, left⟩, hitems, heq⟩
      cases heq
      have hstart := (skipSpace_suffix after).trans hafter
      have hn := Nat.le_trans hstart.length_le hcs
      rcases h.items hn hitems with ⟨hnarrow, hlength, hrest⟩
      have hcount : items.length ≤ n := by omega
      exact ⟨.list hcount hnarrow, hrest.trans hstart⟩
  case h_2 after hspace =>
    have hafter := (List.suffix_cons _ _).trans (suffix_of_skipSpace hspace)
    split at hread
    · next hclosed =>
      cases hread
      have hrest := (List.suffix_cons _ _).trans (suffix_of_skipSpace hclosed)
      exact ⟨.object (by simp), hrest.trans hafter⟩
    · rcases Option.map_eq_some_iff.1 hread with ⟨⟨members, left⟩, hmembers, heq⟩
      cases heq
      have hstart := (skipSpace_suffix after).trans hafter
      have hn := Nat.le_trans hstart.length_le hcs
      rcases h.members hn hmembers with ⟨hnarrow, hrest⟩
      exact ⟨narrow_ofMembers hnarrow, hrest.trans hstart⟩
  case h_3 hspace =>
    have hafter := (List.suffix_cons _ _).trans (suffix_of_skipSpace hspace)
    rcases narrow_of_readWord .null hread with ⟨hnarrow, hrest⟩
    exact ⟨hnarrow, hrest.trans hafter⟩
  case h_4 hspace =>
    have hafter := (List.suffix_cons _ _).trans (suffix_of_skipSpace hspace)
    rcases narrow_of_readWord (.bool true) hread with ⟨hnarrow, hrest⟩
    exact ⟨hnarrow, hrest.trans hafter⟩
  case h_5 hspace =>
    have hafter := (List.suffix_cons _ _).trans (suffix_of_skipSpace hspace)
    rcases narrow_of_readWord (.bool false) hread with ⟨hnarrow, hrest⟩
    exact ⟨hnarrow, hrest.trans hafter⟩
  case h_6 c after _ _ _ _ _ hspace =>
    have hc := suffix_of_skipSpace hspace
    split at hread
    · rcases Option.map_eq_some_iff.1 hread with ⟨⟨text, left⟩, hquoted, heq⟩
      cases heq
      have hrest := leaves_readQuoted _ _ _ hquoted
      refine ⟨?_, (hrest.trans (List.suffix_cons c after)).trans hc⟩
      cases text with
      | none => exact .unreadable
      | some text => exact .text text
    · exact ⟨narrow_of_readNumber hread, (leaves_readNumber _ _ _ hread).trans hc⟩
  case h_7 => cases hread

/-- Every item takes at least the mark after it, so there are no more items than characters. -/
theorem readItems (h : Measures n fuel) (hcs : cs.length ≤ n) {items : List Json}
    (hread : Json.readItems (fuel + 1) cs = some (items, rest)) :
    (∀ item ∈ items, item.Narrow n) ∧ items.length + rest.length ≤ cs.length ∧ rest <:+ cs := by
  simp only [Json.readItems] at hread
  split at hread
  · cases hread
  · next item after hitem =>
    rcases h.value hcs hitem with ⟨hnarrow, hafter⟩
    split at hread
    · next left hcomma =>
      rcases Option.map_eq_some_iff.1 hread with ⟨⟨others, last⟩, hothers, heq⟩
      cases heq
      -- The comma makes the rest shorter by one, so there is room to count the item.
      have hleft := (suffix_of_skipSpace hcomma).trans hafter
      have hshorter := hleft.length_le
      rw [List.length_cons] at hshorter
      rcases h.items (by omega) hothers with ⟨hnarrows, hlength, hrest⟩
      refine ⟨forall_mem_cons_narrow hnarrow hnarrows, ?_, ?_⟩
      · change others.length + 1 + last.length ≤ cs.length
        omega
      · exact hrest.trans ((List.suffix_cons _ _).trans hleft)
    · next left hclosed =>
      cases hread
      have hleft := (suffix_of_skipSpace hclosed).trans hafter
      have hshorter := hleft.length_le
      rw [List.length_cons] at hshorter
      refine ⟨forall_mem_cons_narrow hnarrow (by simp), ?_, (List.suffix_cons _ _).trans hleft⟩
      rw [List.length_singleton]
      omega
    · cases hread

theorem readMembers (h : Measures n fuel) (hcs : cs.length ≤ n)
    {members : List (Option String × Json)}
    (hread : Json.readMembers (fuel + 1) cs = some (members, rest)) :
    (∀ member ∈ members, member.2.Narrow n) ∧ rest <:+ cs := by
  simp only [Json.readMembers] at hread
  split at hread
  · cases hread
  · next quote opened hspace =>
    split at hread
    · cases hread
    · split at hread
      · cases hread
      · next name named hquoted =>
        -- The name, the colon and the value leave less and less.
        have hnamed := (leaves_readQuoted _ _ _ hquoted).trans
          ((List.suffix_cons _ _).trans (suffix_of_skipSpace hspace))
        split at hread
        · next left hcolon =>
          have hleft := (List.suffix_cons _ _).trans ((suffix_of_skipSpace hcolon).trans hnamed)
          split at hread
          · cases hread
          · next value after hvalue =>
            rcases h.value (Nat.le_trans hleft.length_le hcs) hvalue with ⟨hnarrow, hafter⟩
            have hafter' := hafter.trans hleft
            split at hread
            · next more hcomma =>
              rcases Option.map_eq_some_iff.1 hread with ⟨⟨others, last⟩, hothers, heq⟩
              cases heq
              have hmore := (List.suffix_cons _ _).trans
                ((suffix_of_skipSpace hcomma).trans hafter')
              rcases h.members (Nat.le_trans hmore.length_le hcs) hothers with ⟨hnarrows, hrest⟩
              refine ⟨fun member hmember => ?_, hrest.trans hmore⟩
              rcases List.mem_cons.1 hmember with rfl | hmember
              · exact hnarrow
              · exact hnarrows member hmember
            · next hclosed =>
              cases hread
              refine ⟨fun member hmember => ?_, (List.suffix_cons _ _).trans
                ((suffix_of_skipSpace hclosed).trans hafter')⟩
              rcases List.mem_singleton.1 hmember with rfl
              exact hnarrow
            · cases hread
        · cases hread

end Measures

/-- By induction on the fuel. -/
theorem measures (n fuel : Nat) : Measures n fuel := by
  induction fuel with
  | zero =>
      refine ⟨fun _ h => ?_, fun _ h => ?_, fun _ h => ?_⟩
      · simp [readValue] at h
      · simp [readItems] at h
      · simp [readMembers] at h
  | succ fuel ih => exact ⟨fun hcs h => ih.readValue hcs h, fun hcs h => ih.readItems hcs h,
      fun hcs h => ih.readMembers hcs h⟩

/-- No list is longer than the text that it is read from. -/
theorem narrow_of_parseForm {text : String} {j : Json} (h : parseForm text = some j) :
    j.Narrow text.length := by
  unfold parseForm parseChars at h
  split at h
  · next value rest hread =>
    split at h
    · cases h
      have hlength : text.toList.length ≤ text.length := Nat.le_of_eq String.length_toList
      exact ((measures text.length _).value hlength hread).1
    · cases h
  · cases h

end Json
end StoryPlayer
