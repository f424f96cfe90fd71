import Mathlib.Data.List.TakeWhile
import StoryPlayer.Json.Fields
import StoryPlayer.Json.Printer
import StoryPlayer.Json.Reader

/-!
# Numbers that are printed and read again

- `Extends` says that a reader does not mind what stands behind the part that it reads,
- `readNumber_digitChars` reads a small whole number back from its digits, and `asNat64_natural` says
  that no other whole number is read from the digits of one, however large it is,
- `exists_readNumber_printFloat` shows that what is printed for a finite double is well formed: with
  whatever digits and power of ten, some number is read from it.
-/

namespace StoryPlayer
namespace Json

/-! ## What stands behind a value -/

/-- A value may end here: there is nothing more, or a mark between values. -/
def Stops (rest : List Char) : Prop :=
  ∀ c ∈ rest.head?, c = ',' ∨ c = ']' ∨ c = '\x7d'

/-- What is read stays the same if more characters stand behind it. -/
def Extends {α : Type} (read : List Char → Option (α × List Char)) (rest : List Char) : Prop :=
  ∀ cs x tail, read cs = some (x, tail) → read (cs ++ rest) = some (x, tail ++ rest)

theorem stops_nil : Stops [] := by
  intro c hc
  cases hc

/-- A value may be followed by a comma or a closing bracket. -/
theorem stops_cons {c : Char} {rest : List Char} (h : c = ',' ∨ c = ']' ∨ c = '\x7d') :
    Stops (c :: rest) := by
  intro d hd
  cases hd
  exact h

theorem Stops.not_digit {rest : List Char} (h : Stops rest) :
    ∀ c ∈ rest.head?, c.isDigit = false := by
  intro c hc
  rcases h c hc with rfl | rfl | rfl <;> rfl

section Numbers

variable {rest : List Char}

/-- Digits are taken up to the same place if what follows starts with none. -/
theorem takeDigits_append (h : ∀ c ∈ rest.head?, c.isDigit = false) (cs : List Char) :
    takeDigits (cs ++ rest) = ((takeDigits cs).1, (takeDigits cs).2 ++ rest) := by
  induction cs with
  | nil =>
      cases rest with
      | nil => rfl
      | cons c rest =>
          have hc : c.isDigit = false := h c rfl
          simp [takeDigits, hc]
  | cons c cs ih =>
      by_cases hc : c.isDigit = true
      · simp only [takeDigits, Prod.mk.injEq] at ih
        simp [takeDigits, hc, ih]
      · simp [takeDigits, hc]

/-- A whole part ends where a value may end. -/
theorem extends_readWhole (h : Stops rest) : Extends readWhole rest := by
  intro cs digits tail hread
  unfold readWhole at hread ⊢
  rw [takeDigits_append h.not_digit]
  split at hread
  · cases hread
  · cases hread
  · next hdigits =>
    cases hread
    simp only [hdigits]

theorem extends_readFraction (h : Stops rest) : Extends readFraction rest := by
  intro cs digits tail hread
  unfold readFraction at hread
  split at hread
  · next behind =>
    simp only [List.cons_append, readFraction, takeDigits_append h.not_digit]
    split at hread
    · cases hread
    · next hdigits =>
      cases hread
      simp only [hdigits]
  · next hpoint =>
    cases hread
    -- Neither the characters nor what stands behind them can start with a point.
    unfold readFraction
    split
    · next behind heq =>
      cases cs with
      | nil =>
          have hfirst := h '.' (by rw [← List.nil_append rest, heq]; rfl)
          rcases hfirst with hc | hc | hc <;> cases hc
      | cons c cs =>
          cases heq
          exact absurd rfl (hpoint cs)
    · rfl

theorem extends_readExponentDigits (h : Stops rest) (below : Bool) :
    Extends (readExponentDigits below) rest := by
  intro cs digits tail hread
  unfold readExponentDigits at hread ⊢
  rw [takeDigits_append h.not_digit]
  split at hread
  · cases hread
  · next hdigits =>
    cases hread
    simp only [hdigits]

theorem readExponent_marked {mark sign : Char} {cs : List Char}
    (hmark : (mark == 'e' || mark == 'E') = true) (hplus : sign ≠ '+') (hminus : sign ≠ '-') :
    readExponent (mark :: sign :: cs) = readExponentDigits false (sign :: cs) := by
  simp only [readExponent, hmark, if_true]
  split
  · next heq => exact absurd (List.cons.inj heq).1 hplus
  · next heq => exact absurd (List.cons.inj heq).1 hminus
  · rfl

theorem extends_readExponent (h : Stops rest) : Extends readExponent rest := by
  intro cs digits tail hread
  cases cs with
  | nil =>
      cases hread
      -- There is no exponent, and what stands behind does not start one.
      cases rest with
      | nil => rfl
      | cons c rest =>
          rcases h c rfl with rfl | rfl | rfl <;> rfl
  | cons mark cs =>
      by_cases hmark : (mark == 'e' || mark == 'E') = true
      · -- A sign behind the mark is one of the characters, not of what stands behind them.
        cases cs with
        | nil =>
            simp only [readExponent, hmark, if_true] at hread
            cases hread
        | cons sign cs =>
            by_cases hplus : sign = '+'
            · subst hplus
              simp only [readExponent, hmark, if_true, List.cons_append] at hread ⊢
              exact extends_readExponentDigits h false cs _ _ hread
            · by_cases hminus : sign = '-'
              · subst hminus
                simp only [readExponent, hmark, if_true, List.cons_append] at hread ⊢
                exact extends_readExponentDigits h true cs _ _ hread
              · rw [readExponent_marked hmark hplus hminus] at hread
                simp only [List.cons_append, readExponent_marked hmark hplus hminus]
                exact extends_readExponentDigits h false (sign :: cs) _ _ hread
      · simp only [readExponent, hmark, List.cons_append] at hread ⊢
        cases hread
        rfl

/-- A number is read the same in front of anything that ends a value. -/
theorem extends_readUnsigned (h : Stops rest) (negative : Bool) :
    Extends (readUnsigned negative) rest := by
  intro cs j tail hread
  rcases Option.bind_eq_some_iff.1 hread with ⟨⟨whole, first⟩, hwhole, hread⟩
  rcases Option.bind_eq_some_iff.1 hread with ⟨⟨fraction, second⟩, hfraction, hread⟩
  rcases Option.bind_eq_some_iff.1 hread with ⟨⟨exponent, third⟩, hexponent, hread⟩
  cases hread
  have hwhole' := extends_readWhole h cs _ _ hwhole
  have hfraction' := extends_readFraction h first _ _ hfraction
  have hexponent' := extends_readExponent h second _ _ hexponent
  simp [readUnsigned, hwhole', hfraction', hexponent']

/-- A number is read up to a mark between values. -/
theorem extends_readNumber (h : Stops rest) : Extends readNumber rest := by
  intro cs j tail hread
  cases cs with
  | nil => cases hread
  | cons c cs =>
      by_cases hc : c = '-'
      · subst hc
        exact extends_readUnsigned h true cs j tail hread
      · have hread' : readUnsigned false (c :: cs) = some (j, tail) := by
          simpa [readNumber, hc] using hread
        simpa [readNumber, hc] using extends_readUnsigned h false (c :: cs) j tail hread'

/-- A number starts with a minus or a digit. -/
theorem head_of_readNumber {c : Char} {cs : List Char} {found : Json × List Char}
    (h : readNumber (c :: cs) = some found) : c = '-' ∨ c.isDigit = true := by
  by_cases hminus : c = '-'
  · exact Or.inl hminus
  · cases hdigit : c.isDigit with
    | true => exact Or.inr rfl
    | false =>
        have hwhole : readWhole (c :: cs) = none := by
          simp [readWhole, takeDigits, hdigit]
        simp [readNumber, hminus, readUnsigned, hwhole] at h

end Numbers

/-! ## Whole numbers -/

/-- Digits that make up a small number are all gathered. -/
theorem gather_eq {significand : Nat} {digits : List Char}
    (h : Nat.ofDigitChars 10 digits significand ≤ maxSignificand) :
    gather significand digits = (Nat.ofDigitChars 10 digits significand, []) := by
  induction digits generalizing significand with
  | nil => simp [gather]
  | cons c rest ih =>
      rw [Nat.ofDigitChars_cons] at h ⊢
      have hnext : 10 * significand + digitValue c ≤ maxSignificand := by
        -- The number only grows with further digits.
        have hgrows := @Nat.ofDigitChars_eq_ofDigitChars_zero rest
          (10 * significand + (c.toNat - '0'.toNat))
        have hpower : 1 ≤ 10 ^ rest.length := Nat.one_le_pow _ _ (by decide)
        have hscaled : 10 * significand + (c.toNat - '0'.toNat) ≤
            10 ^ rest.length * (10 * significand + (c.toNat - '0'.toNat)) :=
          Nat.le_mul_of_pos_left _ hpower
        exact Nat.le_trans (Nat.le_trans hscaled (by omega)) h
      simp only [gather, if_pos hnext]
      exact ih h

/-- Only zero starts with the digit zero. -/
theorem head_digitChars {n : Nat} (h : (Decimal.digitChars n).head? = some '0') : n = 0 := by
  induction n using Nat.strongRecOn with
  | _ n ih =>
      unfold Decimal.digitChars at h ih
      by_cases hsmall : n < 10
      · simpa [Nat.toDigits_of_lt_base hsmall] using h
      · rw [Nat.toDigits_of_base_le (by decide) (by omega)] at h
        have hhead : (Nat.toDigits 10 (n / 10)).head? = some '0' := by
          cases hdigits : Nat.toDigits 10 (n / 10) with
          | nil => exact absurd hdigits Nat.toDigits_ne_nil
          | cons c rest => simpa [hdigits] using h
        have hzero := ih (n / 10) (by omega) hhead
        omega

/-- Digits are printed as digits. -/
theorem isDigit_digitChars (n : Nat) : ∀ c ∈ Decimal.digitChars n, c.isDigit = true :=
  fun _ hc => Nat.isDigit_of_mem_toDigits (by decide) (by decide) hc

/-- Digits are taken up to what stands behind them. -/
theorem takeDigits_digits {ds rest : List Char} (hdigits : ∀ c ∈ ds, c.isDigit = true)
    (hrest : ∀ c ∈ rest.head?, c.isDigit = false) : takeDigits (ds ++ rest) = (ds, rest) := by
  have htake : takeDigits ds = (ds, []) := by
    unfold takeDigits
    rw [List.takeWhile_eq_self_iff.2 hdigits, List.dropWhile_eq_nil_iff.2 hdigits]
  rw [takeDigits_append hrest, htake]
  rfl

/-- Digits are a whole part unless there are several of them and the first one is zero. -/
theorem readWhole_digits {ds rest : List Char} (hdigits : ∀ c ∈ ds, c.isDigit = true)
    (hne : ds ≠ []) (hzero : ds.head? = some '0' → ds = ['0'])
    (hrest : ∀ c ∈ rest.head?, c.isDigit = false) :
    readWhole (ds ++ rest) = some (ds, rest) := by
  unfold readWhole
  rw [takeDigits_digits hdigits hrest]
  split
  · next heq => exact absurd (Prod.mk.inj heq).1 hne
  · next heq =>
    obtain rfl := (Prod.mk.inj heq).1
    cases hzero rfl
  · next heq =>
    cases heq
    rfl

/-- Only zero is printed with a zero in front. -/
theorem head_digitChars_zero {n : Nat} (h : (Decimal.digitChars n).head? = some '0') :
    Decimal.digitChars n = ['0'] := by
  rw [head_digitChars h]
  rfl

/-- The digits of a whole number are read as its whole part. -/
theorem readWhole_digitChars {n : Nat} {rest : List Char}
    (hrest : ∀ c ∈ rest.head?, c.isDigit = false) :
    readWhole (Decimal.digitChars n ++ rest) = some (Decimal.digitChars n, rest) :=
  readWhole_digits (isDigit_digitChars n) Nat.toDigits_ne_nil head_digitChars_zero hrest

/-- The parts of a number are read one after the other. -/
theorem readUnsigned_parts {negative : Bool} {cs first second : List Char} {whole : List Char}
    {fraction : Option (List Char)} {exponent : Option (Bool × List Char)}
    (hwhole : readWhole cs = some (whole, first))
    (hfraction : readFraction first = some (fraction, second))
    (hexponent : readExponent second = some (exponent, [])) :
    readUnsigned negative cs = some (Numeral.toJson ⟨negative, whole, fraction, exponent⟩, []) := by
  simp [readUnsigned, hwhole, hfraction, hexponent]

/-- A number without a sign does not start with one. -/
theorem readNumber_unsigned {cs : List Char} {found : Json × List Char}
    (h : readUnsigned false cs = some found) : readNumber cs = some found := by
  cases cs with
  | nil => exact h
  | cons c rest =>
      have hminus : c ≠ '-' := by
        rintro rfl
        cases h
      simpa [readNumber, hminus] using h

/-- A whole number is read from its digits. -/
theorem readUnsigned_digitChars (negative : Bool) (n : Nat) :
    readUnsigned negative (Decimal.digitChars n) =
      some (Numeral.toJson ⟨negative, Decimal.digitChars n, none, none⟩, []) := by
  have hwhole := @readWhole_digitChars n [] (by simp)
  rw [List.append_nil] at hwhole
  exact readUnsigned_parts hwhole rfl rfl

/-- A whole number is read back from its digits. -/
theorem readNumber_digitChars {n : Nat} (h : n ≤ maxSignificand) :
    readNumber (Decimal.digitChars n) = some (.number (.natural n), []) := by
  have hgather : gather 0 (Decimal.digitChars n) = (n, []) := by
    unfold Decimal.digitChars
    rw [gather_eq (by simpa using h), Nat.ofDigitChars_ten_toDigits]
  rw [readNumber_unsigned (readUnsigned_digitChars false n)]
  simp [Numeral.toJson, Numeral.value, hgather]

/-- If no digit is left over, the significand is the number that they make up. -/
theorem ofDigitChars_of_gather {significand found : Nat} {digits : List Char}
    (h : gather significand digits = (found, [])) :
    found = Nat.ofDigitChars 10 digits significand := by
  induction digits generalizing significand with
  | nil =>
      cases h
      simp
  | cons c rest ih =>
      simp only [gather] at h
      split at h
      · rw [Nat.ofDigitChars_cons]
        exact ih h
      · cases h

/-- A whole number that is too large is not taken for another one. -/
theorem asNat64_natural {n m : Nat}
    (h : asNat64 (Numeral.toJson ⟨false, Decimal.digitChars n, none, none⟩) = some m) : m = n := by
  cases hgather : gather 0 (Decimal.digitChars n) with
  | mk significand dropped =>
      cases dropped with
      | nil =>
          have hvalue := ofDigitChars_of_gather hgather
          rw [Decimal.digitChars, Nat.ofDigitChars_ten_toDigits] at hvalue
          simp only [Numeral.toJson, Numeral.value, hgather] at h
          cases h
          exact hvalue
      | cons c rest =>
          -- With digits left over the number is read as a double, or not at all.
          simp only [Numeral.toJson, Numeral.value, hgather] at h
          cases hscale : scale significand ((rest.length : Int) + 1) with
          | none => simp [hscale, gather, asNat64] at h
          | some x => simp [hscale, gather, asNat64] at h

/-! ## Doubles -/

section Doubles

variable {ds : List Char}

/-- A point and digits are read as a fraction. -/
theorem readFraction_digits {rest : List Char} (hdigits : ∀ c ∈ ds, c.isDigit = true)
    (hne : ds ≠ []) (hrest : ∀ c ∈ rest.head?, c.isDigit = false) :
    readFraction ('.' :: (ds ++ rest)) = some (some ds, rest) := by
  simp only [readFraction, takeDigits_digits hdigits hrest]

/-- Digits are read as those of an exponent. -/
theorem readExponentDigits_digits (below : Bool) (hdigits : ∀ c ∈ ds, c.isDigit = true)
    (hne : ds ≠ []) : readExponentDigits below ds = some (some (below, ds), []) := by
  have htake : takeDigits ds = (ds, []) := by
    simpa using @takeDigits_digits ds [] hdigits (by simp)
  unfold readExponentDigits
  rw [htake]
  split
  · next heq => exact absurd (Prod.mk.inj heq).1 hne
  · next heq =>
    cases heq
    rfl

/-- Digits with a point somewhere after the first one are a number. -/
theorem exists_readUnsigned_point {front behind : List Char} (negative : Bool)
    (hfront : ∀ c ∈ front, c.isDigit = true) (hfirst : front ≠ [])
    (hzero : front.head? = some '0' → front = ['0']) (hbehind : ∀ c ∈ behind, c.isDigit = true)
    (hlast : behind ≠ []) : ∃ j, readUnsigned negative (front ++ '.' :: behind) = some (j, []) := by
  have hpoint : ∀ c ∈ ('.' :: behind).head?, c.isDigit = false := by
    intro c hc
    cases hc
    rfl
  have hfraction : readFraction ('.' :: behind) = some (some behind, []) := by
    simpa using @readFraction_digits behind [] hbehind hlast (by simp)
  exact ⟨_, readUnsigned_parts (readWhole_digits hfront hfirst hzero hpoint) hfraction rfl⟩

theorem isDigit_zeros (n : Nat) : ∀ c ∈ List.replicate n '0', c.isDigit = true := by
  intro c hc
  rw [List.eq_of_mem_replicate hc]
  rfl

/-- The digits in front of the point, filled up with zeros, are those of a number. -/
theorem padded_digits {n : Nat} (hdigits : ∀ c ∈ ds, c.isDigit = true) (hne : ds ≠ [])
    (hzero : ds.head? = some '0' → ds = ['0'] ∧ n = 0) {front : List Char}
    (hfront : front = ds.take (n + 1) ++ List.replicate (n + 1 - ds.length) '0') :
    (∀ c ∈ front, c.isDigit = true) ∧ front ≠ [] ∧ (front.head? = some '0' → front = ['0']) := by
  subst hfront
  refine ⟨fun c hc => ?_, by simp [hne], fun hfound => ?_⟩
  · rcases List.mem_append.1 hc with hc | hc
    · exact hdigits c (List.mem_of_mem_take hc)
    · exact isDigit_zeros _ c hc
  · have hhead : ds.head? = some '0' := by
      cases ds with
      | nil => exact absurd rfl hne
      | cons d rest => simpa using hfound
    rcases hzero hhead with ⟨rfl, rfl⟩
    rfl

/-- The digits of a number, written in full. -/
theorem exists_readUnsigned_inFull {power : Int} (negative : Bool)
    (hdigits : ∀ c ∈ ds, c.isDigit = true) (hne : ds ≠ [])
    (hzero : ds.head? = some '0' → ds = ['0'] ∧ power = 0) :
    ∃ j, readUnsigned negative (Decimal.writeInFull true ds power) = some (j, []) := by
  unfold Decimal.writeInFull
  split
  · -- Below one there is a zero in front of the point and zeros behind it.
    have hbehind : ∀ c ∈ List.replicate ((-power).toNat - 1) '0' ++ ds, c.isDigit = true := by
      intro c hc
      rcases List.mem_append.1 hc with hc | hc
      · exact isDigit_zeros _ c hc
      · exact hdigits c hc
    have hread := @exists_readUnsigned_point ['0'] _ negative (isDigit_zeros 1) (by simp) (by simp)
      hbehind (by simp [hne])
    simpa using hread
  · -- The digits in front of the point are filled up with zeros.
    next hpower =>
    have hzero' : ds.head? = some '0' → ds = ['0'] ∧ power.toNat = 0 := by
      intro hhead
      rcases hzero hhead with ⟨hds, rfl⟩
      exact ⟨hds, rfl⟩
    rcases padded_digits hdigits hne hzero' rfl with ⟨hfront, hfirst, hstart⟩
    have hpoint := fun behind hbehind hlast =>
      @exists_readUnsigned_point _ behind negative hfront hfirst hstart hbehind hlast
    cases hdrop : ds.drop (power.toNat + 1) with
    | nil =>
        simp only [hdrop, if_true]
        exact hpoint ['0'] (isDigit_zeros 1) (by simp)
    | cons d rest =>
        simp only [hdrop]
        refine hpoint (d :: rest) (fun c hc => hdigits c ?_) (by simp)
        exact List.mem_of_mem_drop (hdrop ▸ hc)

/-- The exponent as it is written behind the digits. -/
theorem exists_readExponent (power : Int) :
    ∃ exponent, readExponent ('e' :: (if power < 0 then ['-'] else ['+']) ++
      Decimal.digitChars power.natAbs) = some (exponent, []) := by
  have hsize := isDigit_digitChars power.natAbs
  have hread := fun below => readExponentDigits_digits below hsize Nat.toDigits_ne_nil
  split
  · exact ⟨_, hread true⟩
  · exact ⟨_, hread false⟩

/-- The digits of a number, written with an exponent. -/
theorem exists_readUnsigned_exponent (negative : Bool) (power : Int)
    (hdigits : ∀ c ∈ ds, c.isDigit = true) (hne : ds ≠ []) :
    ∃ j, readUnsigned negative (Decimal.writeExponent true ds power) = some (j, []) := by
  rcases exists_readExponent power with ⟨exponent, hexponent⟩
  generalize hmark : 'e' :: (if power < 0 then ['-'] else ['+']) ++
    Decimal.digitChars power.natAbs = behind at hexponent
  have hbehind : ∀ c ∈ behind.head?, c.isDigit = false := by
    intro c hc
    rw [← hmark] at hc
    cases hc
    rfl
  cases ds with
  | nil => exact absurd rfl hne
  | cons first rest =>
      have hfirst : ∀ c ∈ [first], c.isDigit = true := fun c hc =>
        hdigits c (by simpa using Or.inl (List.mem_singleton.1 hc))
      cases rest with
      | nil =>
          -- A single digit is written without a point.
          have hwhole := readWhole_digits hfirst (by simp) (by simp) hbehind
          have hfraction : readFraction behind = some (none, behind) := by
            rw [← hmark]
            rfl
          have hwritten : Decimal.writeExponent true [first] power = [first] ++ behind := by
            rw [← hmark]
            rfl
          rw [hwritten]
          exact ⟨_, readUnsigned_parts hwhole hfraction hexponent⟩
      | cons second rest =>
          -- The digits after the first one stand behind a point.
          have hwhole := @readWhole_digits [first] ('.' :: second :: rest ++ behind) hfirst (by simp)
            (by simp) (by simp)
          have hrest : ∀ c ∈ second :: rest, c.isDigit = true := fun c hc =>
            hdigits c (List.mem_cons_of_mem _ hc)
          have hfraction := readFraction_digits hrest (by simp) hbehind
          have hwritten : Decimal.writeExponent true (first :: second :: rest) power =
              [first] ++ ('.' :: second :: rest ++ behind) := by
            rw [← hmark]
            simp [Decimal.writeExponent]
          rw [hwritten]
          exact ⟨_, readUnsigned_parts hwhole hfraction hexponent⟩

end Doubles

/-- A finite number is a number. -/
theorem not_nan_of_finite {x : Float} (h : x.isFinite = true) : x.isNaN = false ∧ x.isInf = false := by
  change (Float.Model.UnpackedFloat.unpack _ _).isFinite = true at h
  change (Float.Model.UnpackedFloat.unpack _ _).isNaN = false ∧
    (Float.Model.UnpackedFloat.unpack _ _).isInf = false
  revert h
  generalize Float.Model.UnpackedFloat.unpack _ _ = u
  intro h
  cases u with
  | notANumber => cases h
  | infinity _ => cases h
  | zero _ => exact ⟨rfl, rfl⟩
  | finite _ _ _ _ => exact ⟨rfl, rfl⟩

/-- What is printed for a finite double is a number. -/
theorem exists_readNumber_printFloat {x : Float} (h : x.isFinite = true) :
    ∃ j, readNumber (printFloat x).toList = some (j, []) := by
  rcases not_nan_of_finite h with ⟨hnan, hinf⟩
  unfold printFloat Decimal.Layout.write
  simp only [h, hnan, hinf, if_true, Bool.false_eq_true, if_false, String.toList_ofList]
  generalize Decimal.Binary.ofFloat x = b
  generalize b.shortest = d
  -- Of the power only matters that it is zero if the number is.
  obtain ⟨power, hpower, hzero⟩ : ∃ power : Int,
      (if d.digits = 0 then 0 else d.scientific) = power ∧ (d.digits = 0 → power = 0) :=
    ⟨_, rfl, fun hzero => if_pos hzero⟩
  rw [hpower]
  have hdigits := isDigit_digitChars d.digits
  have hbody : ∀ negative, ∃ j, readUnsigned negative
      (if (decide (d.digits = 0) || Decimal.Layout.document.inFull power) = true then
        Decimal.writeInFull true (Decimal.digitChars d.digits) power
      else Decimal.writeExponent true (Decimal.digitChars d.digits) power) = some (j, []) := by
    intro negative
    split
    · refine exists_readUnsigned_inFull negative hdigits Nat.toDigits_ne_nil fun hhead => ?_
      exact ⟨head_digitChars_zero hhead, hzero (head_digitChars hhead)⟩
    · exact exists_readUnsigned_exponent negative _ hdigits Nat.toDigits_ne_nil
  cases b.negative with
  | true =>
      rcases hbody true with ⟨j, hj⟩
      exact ⟨j, hj⟩
  | false =>
      rcases hbody false with ⟨j, hj⟩
      exact ⟨j, readNumber_unsigned hj⟩

/-! ## What is read from the text of a number -/

/-- The document that is read from the text of a number.  For a double that is not finite the text is
none of a number, but `null`. -/
def Number.reread (n : Number) : Json :=
  match readNumber (printNumber n).toList with
  | some (j, _) => j
  | none => .null

/-- The text of a number is a number, or `null`. -/
theorem Number.reads (n : Number) :
    readNumber (printNumber n).toList = some (n.reread, []) ∨
      (printNumber n).toList = ['n', 'u', 'l', 'l'] ∧ n.reread = .null := by
  have hread : (∃ j, readNumber (printNumber n).toList = some (j, [])) ∨
      printNumber n = "null" := by
    cases n with
    | natural n => exact Or.inl ⟨_, by
        simpa [printNumber] using readNumber_unsigned (readUnsigned_digitChars false n)⟩
    | negative n => exact Or.inl ⟨_, by
        simpa [printNumber, readNumber] using readUnsigned_digitChars true n⟩
    | real x =>
        cases hfinite : x.isFinite with
        | true => exact Or.inl (exists_readNumber_printFloat hfinite)
        | false => exact Or.inr (by simp [printNumber, printFloat, hfinite])
  rcases hread with ⟨j, hj⟩ | hnull
  · left
    simp [reread, hj]
  · right
    constructor
    · rw [hnull]
      rfl
    · simp only [reread, hnull]
      rfl

theorem reread_natural (n : Nat) :
    (Number.natural n).reread = Numeral.toJson ⟨false, Decimal.digitChars n, none, none⟩ := by
  have hread : readNumber (printNumber (.natural n)).toList =
      some (Numeral.toJson ⟨false, Decimal.digitChars n, none, none⟩, []) := by
    simpa [printNumber] using readNumber_unsigned (readUnsigned_digitChars false n)
  simp only [Number.reread, hread]

end Json
end StoryPlayer
