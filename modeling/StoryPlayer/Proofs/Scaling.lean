import StoryPlayer.Proofs.Finite
import StoryPlayer.Proofs.Reading

/-!
# Doubles that are read

A number of a text is made of a whole number of 64 bits by a few divisions or a multiplication, so
it is finite: a division by a power of ten raises the exponent by little, and what a multiplication
gives is tested.

- `Double.Bounded` bounds the exponent of a double,
- `Double.bounded_div` says what a division by a power of ten does to the bound,
- `Json.Numeral.isFinite_value` concludes that numerals stand for finite numbers,
- `Json.allFinite_of_parseForm` says so of all numbers in a document.
-/

namespace StoryPlayer
namespace Double

open Float.Model Float.Model.UnpackedFloat

/-! ## Bounds of exponents -/

/-- The number is zero, or finite with an exponent up to the bound. -/
def Bounded (bound : Int) (u : UnpackedFloat) : Prop :=
  match u with
  | .notANumber => False
  | .infinity _ => False
  | .zero _ => True
  | .finite _ _ exponent _ => exponent ≤ bound

variable {bound : Int} {u : UnpackedFloat} {x y : Float}

/-- A number with a bounded exponent is finite. -/
theorem isFinite_of_bounded (h : Bounded bound x.toModel.unpack) : x.isFinite = true := by
  change x.toModel.unpack.isFinite = true
  cases hx : x.toModel.unpack with
  | notANumber =>
      rw [hx] at h
      exact h.elim
  | infinity sign =>
      rw [hx] at h
      exact h.elim
  | zero sign => rfl
  | finite sign mantissa exponent hpos => rfl

/-- The exponent of a packed number that is unpacked. -/
theorem bounded_of_unpackExponent {b : BitVec Format.binary64.numBits} (hbound : 0 ≤ bound)
    (hsmall : bound ≤ 971) (h : ((unpackExponent b).toNat : Int) ≤ bound + 1075) :
    Bounded bound (UnpackedFloat.unpack Format.binary64 b) := by
  have hbias : (Format.exponentBias Format.binary64 : Int) = 1023 := rfl
  have hbits : (Format.mantissaBitsWithoutImplicit Format.binary64 : Int) = 52 := rfl
  have hones : unpackExponent b ≠ -1#_ := by
    intro heq
    have hnat := congrArg BitVec.toNat heq
    have hvalue : (-BitVec.ofNat Format.binary64.exponentBits 1).toNat = 2047 := rfl
    omega
  unfold UnpackedFloat.unpack
  simp only [hbias, hbits, if_neg hones]
  split
  · split
    · trivial
    · next hzero _ =>
      change _ ≤ bound
      have hnone : (unpackExponent b).toNat = 0 := by
        rw [hzero]
        rfl
      omega
  · change _ ≤ bound
    omega

/-- Packing a number leaves its exponent within the bound. -/
theorem bounded_pack (h : Bounded bound u) (hbound : 0 ≤ bound) (hsmall : bound ≤ 971) :
    Bounded bound (Float.Model.pack u).unpack := by
  refine bounded_of_unpackExponent (b := UnpackedFloat.pack Format.binary64 u) hbound hsmall ?_
  cases u with
  | notANumber => exact h.elim
  | infinity sign => exact h.elim
  | zero sign =>
      simp only [UnpackedFloat.pack, packedZero, unpackExponent_packComponents]
      change (0 : Int) ≤ _
      omega
  | finite sign mantissa exponent hpos =>
      have hle : exponent ≤ bound := h
      have hbias : (Format.exponentBias Format.binary64 : Int) = 1023 := rfl
      have hbits : (Format.mantissaBitsWithoutImplicit Format.binary64 : Int) = 52 := rfl
      simp only [UnpackedFloat.pack, hbias, hbits]
      -- The number is too large, is packed with its exponent, or is subnormal.
      split
      · next hlarge =>
        have hpower : 2 ^ Format.binary64.exponentBits = 2048 := rfl
        omega
      · split
        · simp only [unpackExponent_packComponents, BitVec.toNat_ofNat]
          have hmod := Nat.mod_le (exponent + 1023 + 52).toNat (2 ^ Format.binary64.exponentBits)
          omega
        · simp only [unpackExponent_packComponents]
          change (0 : Int) ≤ _
          omega

/-! ## Rounding -/

theorem mantissa_shiftRight_eq (em : ExtendedMantissa) (n : Nat) :
    (em >>> n).mantissa = em.mantissa / 2 ^ n := by
  change (Nat.repeat ExtendedMantissa.shiftRightOne n em).mantissa = _
  induction n with
  | zero => simp [Nat.repeat]
  | succ n ih =>
      have hhalf : (Nat.repeat ExtendedMantissa.shiftRightOne (n + 1) em).mantissa =
          (Nat.repeat ExtendedMantissa.shiftRightOne n em).mantissa / 2 := rfl
      rw [hhalf, ih, Nat.div_div_eq_div_mul, Nat.pow_succ]

theorem mantissa_ofMantissaAndAccuracy (mantissa : Nat) (accuracy : Accuracy) :
    (ExtendedMantissa.ofMantissaAndAccuracy mantissa accuracy).mantissa = mantissa := by
  unfold ExtendedMantissa.ofMantissaAndAccuracy
  split <;> rfl

/-- Shifting to the target exponent leaves 53 bits of the mantissa. -/
theorem shiftToTargetExponent_bits {mantissa k : Nat} {exponent : Int} {accuracy : Accuracy}
    (hmantissa : mantissa ≤ 2 ^ k) :
    (shiftToTargetExponent Format.binary64 mantissa exponent accuracy).1.mantissa < 2 ^ 53 ∧
      (shiftToTargetExponent Format.binary64 mantissa exponent accuracy).2 ≤
        max exponent (max (k + exponent - 52) 0) := by
  have hlog : mantissa.log2 ≤ k := by
    by_cases hzero : mantissa = 0
    · simp [hzero]
    · have hlt : mantissa < 2 ^ (k + 1) :=
        Nat.lt_of_le_of_lt hmantissa (Nat.pow_lt_pow_succ (by decide))
      exact Nat.le_of_lt_succ ((Nat.log2_lt hzero).2 hlt)
  have hbits : (Format.binary64.mantissaBits : Int) = 53 := rfl
  have hmin : Format.binary64.minExponent = -1074 := rfl
  simp only [shiftToTargetExponent, shiftToExponent, Format.targetExponent, totalExponent, hbits,
    hmin, mantissa_shiftRight_eq, mantissa_ofMantissaAndAccuracy]
  constructor
  · -- What is shifted out leaves no more than 53 bits.
    generalize hshift : (max ((mantissa.log2 : Int) + 1 + exponent - 53) (-1074) -
      exponent).toNat = shift
    have henough : mantissa.log2 + 1 ≤ 53 + shift := by omega
    have hlt : mantissa < 2 ^ (53 + shift) :=
      Nat.lt_of_lt_of_le Nat.lt_log2_self (Nat.pow_le_pow_right (by decide) henough)
    rw [Nat.pow_add] at hlt
    exact Nat.div_lt_of_lt_mul (by rwa [Nat.mul_comm])
  · omega

/-- Rounding raises the exponent by one at most. -/
theorem bounded_roundWithAccuracy {sign : Sign} {mantissa k : Nat} {exponent : Int}
    {accuracy : Accuracy} (hmantissa : mantissa ≤ 2 ^ k) (hexponent : exponent < bound)
    (htotal : k + exponent - 52 < bound) (hbound : 0 < bound) :
    Bounded bound (roundWithAccuracy Format.binary64 sign mantissa exponent accuracy) := by
  have hfirst := @shiftToTargetExponent_bits mantissa k exponent accuracy hmantissa
  have hrounded := roundedMantissa_le
    (shiftToTargetExponent Format.binary64 mantissa exponent accuracy).1
  have hsecond := @shiftToTargetExponent_bits
    (shiftToTargetExponent Format.binary64 mantissa exponent accuracy).1.roundedMantissa 53
    (shiftToTargetExponent Format.binary64 mantissa exponent accuracy).2 .exact (by omega)
  unfold roundWithAccuracy
  simp only
  split
  · trivial
  · change _ ≤ bound
    omega

/-! ## Arithmetic -/

/-- A mantissa that is read from a double has 53 bits. -/
theorem mantissa_unpack_lt {b : BitVec Format.binary64.numBits} {sign : Sign} {mantissa : Nat}
    {exponent : Int} {hpos : 0 < mantissa}
    (h : UnpackedFloat.unpack Format.binary64 b = .finite sign mantissa exponent hpos) :
    mantissa < 2 ^ 53 := by
  unfold UnpackedFloat.unpack at h
  simp only at h
  split at h
  · split at h <;> cases h
  · split at h
    · split at h
      · cases h
      · cases h
        exact Nat.lt_trans (unpackMantissa b).isLt (by decide)
    · cases h
      exact (1#1 ++ unpackMantissa b).isLt

/-- The number is infinite, or its exponent is one of a number from one on. -/
def isSizeable (u : UnpackedFloat) : Bool :=
  match u with
  | .infinity _ => true
  | .finite _ _ exponent _ => decide (-52 ≤ exponent)
  | _ => false

/-- A division by a sizeable number raises the exponent by little. -/
theorem bounded_div (hx : Bounded bound x.toModel.unpack)
    (hy : isSizeable y.toModel.unpack = true) (hbound : 0 ≤ bound) (hsmall : bound + 54 ≤ 971) :
    Bounded (bound + 54) (x / y).toModel.unpack := by
  refine bounded_pack (u := UnpackedFloat.div Format.binary64 x.toModel.unpack y.toModel.unpack)
    ?_ (by omega) hsmall
  cases hx' : x.toModel.unpack with
  | notANumber =>
      rw [hx'] at hx
      exact hx.elim
  | infinity sign =>
      rw [hx'] at hx
      exact hx.elim
  | zero sign =>
      cases hy' : y.toModel.unpack <;> simp_all [isSizeable, UnpackedFloat.div, Bounded]
  | finite first dividend power hdividend =>
      rw [hx'] at hx
      have hpower : power ≤ bound := hx
      have hlt := mantissa_unpack_lt hx'
      cases hy' : y.toModel.unpack with
      | notANumber => simp [hy', isSizeable] at hy
      | zero sign => simp [hy', isSizeable] at hy
      | infinity sign => trivial
      | finite second mantissa exponent hpos =>
          simp only [hy', isSizeable, decide_eq_true_eq] at hy
          -- The dividend is moved up before it is divided, by as much as its exponent is lowered.
          simp only [UnpackedFloat.div, divCore]
          generalize hlow : min (power - exponent) _ = low
          have hle : low ≤ power - exponent := hlow ▸ Int.min_le_left _ _
          generalize hshift : (power - exponent - low).toNat = shift
          have hquotient : dividend <<< shift / mantissa ≤ 2 ^ (53 + shift) := by
            refine Nat.le_trans (Nat.div_le_self _ _) ?_
            rw [Nat.shiftLeft_eq, Nat.pow_add]
            exact Nat.mul_le_mul_right _ (Nat.le_of_lt hlt)
          exact bounded_roundWithAccuracy hquotient (by omega) (by omega) (by omega)

/-- Multiplying by one moves the bound by three at most. -/
theorem bounded_mul_one (hx : Bounded 65 x.toModel.unpack)
    (hy : y = Float.ofBits 4607182418800017408) : Bounded 68 (x * y).toModel.unpack := by
  have hone : (Float.ofBits 4607182418800017408).toModel.unpack =
      .finite .positive (2 ^ 52) (-52) (by decide) := rfl
  refine bounded_pack (u := UnpackedFloat.mul Format.binary64 x.toModel.unpack y.toModel.unpack)
    ?_ (by decide) (by decide)
  rw [hy, hone]
  cases hx' : x.toModel.unpack with
  | notANumber =>
      rw [hx'] at hx
      exact hx.elim
  | infinity sign =>
      rw [hx'] at hx
      exact hx.elim
  | zero sign => trivial
  | finite sign mantissa exponent hpos =>
      rw [hx'] at hx
      have hexponent : exponent ≤ 65 := hx
      have hlt := mantissa_unpack_lt hx'
      have hproduct : mantissa * 2 ^ 52 ≤ 2 ^ 105 := by omega
      exact bounded_roundWithAccuracy hproduct (by omega) (by omega) (by decide)

/-- A word of 64 bits is a double with an exponent of 65 at most. -/
theorem bounded_toFloat (n : UInt64) : Bounded 65 n.toFloat.toModel.unpack := by
  have hn : n.toNat < 2 ^ 64 := n.toNat_lt
  refine bounded_pack (u := UnpackedFloat.ofUInt64 Format.binary64 n) ?_ (by decide) (by decide)
  unfold UnpackedFloat.ofUInt64 UnpackedFloat.ofNat UnpackedFloat.ofInt UnpackedFloat.normalize
  split
  · next hneg =>
    rw [Int.compare_eq_lt] at hneg
    omega
  · trivial
  · -- The mantissa is moved up by as many bits as its exponent is lowered.
    simp only [UnpackedFloat.round, decreaseExponent]
    generalize (0 - Format.binary64.targetExponent _).toNat = shift
    have hmantissa : (n.toNat : Int).toNat <<< shift ≤ 2 ^ (64 + shift) := by
      rw [Nat.shiftLeft_eq, Nat.pow_add, Int.toNat_natCast]
      exact Nat.mul_le_mul_right _ (Nat.le_of_lt hn)
    exact bounded_roundWithAccuracy hmantissa (by omega) (by omega) (by decide)

/-- A whole number of 64 bits is a double of a moderate exponent. -/
theorem bounded_ofNat {n : Nat} (h : n < 2 ^ 64) : Bounded 68 (Float.ofNat n).toModel.unpack := by
  change Bounded 68 (Float.ofScientific n false 0).toModel.unpack
  unfold Float.ofScientific
  split
  · exact bounded_mul_one (bounded_toFloat _) rfl
  · refine bounded_pack (u := UnpackedFloat.ofScientific Format.binary64 n 0) ?_ (by decide)
      (by decide)
    have hbits : Format.binary64.mantissaBits = 53 := rfl
    have hexponents : Format.binary64.exponentBits = 11 := rfl
    unfold UnpackedFloat.ofScientific
    split
    · trivial
    · split
      · next hlarge => exact absurd hlarge (by rw [hexponents]; decide)
      · split
        · trivial
        · rw [if_pos (by decide)]
          simp only [UnpackedFloat.mul, hbits]
          refine bounded_roundWithAccuracy (k := 117) ?_ ?_ ?_ ?_
          · rw [Nat.shiftLeft_eq]
            simp only [Int.toNat_zero, Nat.pow_zero]
            omega
          all_goals omega

/-! ## Powers of ten -/

/-- A mantissa of 53 bits and a sufficient exponent make a sizeable double. -/
theorem isSizeable_pack {sign : Sign} {mantissa : Nat} {exponent : Int} {hpos : 0 < mantissa}
    (hleast : 2 ^ 52 ≤ mantissa) (hmost : mantissa < 2 ^ 53) (hexponent : -52 ≤ exponent) :
    isSizeable (Float.Model.pack (.finite sign mantissa exponent hpos)).unpack = true := by
  have hbias : (Format.exponentBias Format.binary64 : Int) = 1023 := rfl
  have hbits : (Format.mantissaBitsWithoutImplicit Format.binary64 : Int) = 52 := rfl
  have hpower : 2 ^ Format.binary64.exponentBits = 2048 := rfl
  have hall : Format.binary64.mantissaBits = 53 := rfl
  have hlog : mantissa.log2 = 52 := by
    have hne : mantissa ≠ 0 := by omega
    have hbelow := (Nat.log2_lt hne).2 hmost
    have habove := (Nat.le_log2 hne).2 hleast
    omega
  change isSizeable (UnpackedFloat.unpack Format.binary64
    (UnpackedFloat.pack Format.binary64 (.finite sign mantissa exponent hpos))) = true
  simp only [UnpackedFloat.pack, hbias, hbits, hpower, hall, hlog]
  split
  · cases sign <;> rfl
  · next hsmall =>
    -- The number is normal, so its exponent is read as it was written.
    have hpacked : ∀ biased : Nat, biased = (exponent + 1023 + 52).toNat →
        (BitVec.ofNat Format.binary64.exponentBits biased).toNat = biased := by
      intro biased hbiased
      rw [BitVec.toNat_ofNat, hpower]
      omega
    generalize hbiased : (exponent + 1023 + 52).toNat = biased at *
    have hnat := hpacked biased rfl
    have hones : BitVec.ofNat Format.binary64.exponentBits biased ≠ -1#_ := by
      intro heq
      have hvalue : (-BitVec.ofNat Format.binary64.exponentBits 1).toNat = 2047 := rfl
      rw [heq, hvalue] at hnat
      omega
    have hzero : BitVec.ofNat Format.binary64.exponentBits biased ≠ 0#_ := by
      intro heq
      have hvalue : (BitVec.ofNat Format.binary64.exponentBits 0).toNat = 0 := rfl
      rw [heq, hvalue] at hnat
      omega
    simp only [if_true, UnpackedFloat.unpack, unpackExponent_packComponents, if_neg hones,
      if_neg hzero, isSizeable, hnat, hbias, hbits, decide_eq_true_eq]
    omega

/-- Rounding never goes below the mantissa. -/
theorem le_roundedMantissa (em : ExtendedMantissa) : em.mantissa ≤ em.roundedMantissa := by
  unfold ExtendedMantissa.roundedMantissa Accuracy.roundToNearestEven
  split <;> omega

/-- Shifting to the target exponent keeps 53 bits of a mantissa that has as many. -/
theorem le_shiftToTargetExponent {mantissa : Nat} {exponent : Int} {accuracy : Accuracy}
    (hmantissa : 2 ^ 52 ≤ mantissa) (hexponent : -1074 ≤ mantissa.log2 + exponent - 52) :
    2 ^ 52 ≤ (shiftToTargetExponent Format.binary64 mantissa exponent accuracy).1.mantissa ∧
      mantissa.log2 + exponent - 52 ≤
        (shiftToTargetExponent Format.binary64 mantissa exponent accuracy).2 := by
  have hne : mantissa ≠ 0 := by omega
  have hlog := (Nat.le_log2 hne).2 hmantissa
  have hbits : (Format.binary64.mantissaBits : Int) = 53 := rfl
  have hmin : Format.binary64.minExponent = -1074 := rfl
  simp only [shiftToTargetExponent, shiftToExponent, Format.targetExponent, totalExponent, hbits,
    hmin, mantissa_shiftRight_eq, mantissa_ofMantissaAndAccuracy]
  constructor
  · generalize hshift : (max ((mantissa.log2 : Int) + 1 + exponent - 53) (-1074) -
      exponent).toNat = shift
    have henough : 52 + shift ≤ mantissa.log2 := by omega
    have hle : 2 ^ (52 + shift) ≤ mantissa := (Nat.le_log2 hne).1 henough
    rw [Nat.le_div_iff_mul_le (Nat.two_pow_pos _), ← Nat.pow_add]
    exact hle
  · omega

/-- Rounding keeps a number from one on sizeable. -/
theorem isSizeable_roundWithAccuracy {sign : Sign} {mantissa : Nat} {exponent : Int}
    (hmantissa : 2 ^ 52 ≤ mantissa) (hexponent : 0 ≤ mantissa.log2 + exponent) :
    isSizeable (Float.Model.pack
      (roundWithAccuracy Format.binary64 sign mantissa exponent .exact)).unpack = true := by
  -- Rounding shifts twice, and each time at least `2 ^ 52` is left.
  have hfirst := @le_shiftToTargetExponent mantissa exponent .exact hmantissa (by omega)
  have hrounded := le_roundedMantissa
    (shiftToTargetExponent Format.binary64 mantissa exponent .exact).1
  have hleast : 2 ^ 52 ≤
      (shiftToTargetExponent Format.binary64 mantissa exponent .exact).1.roundedMantissa := by
    omega
  have hlog := (Nat.le_log2 (by omega)).2 hleast
  have hsecond := @le_shiftToTargetExponent
    (shiftToTargetExponent Format.binary64 mantissa exponent .exact).1.roundedMantissa
    (shiftToTargetExponent Format.binary64 mantissa exponent .exact).2 .exact hleast (by omega)
  have hmost := @shiftToTargetExponent_bits
    (shiftToTargetExponent Format.binary64 mantissa exponent .exact).1.roundedMantissa _
    (shiftToTargetExponent Format.binary64 mantissa exponent .exact).2 .exact
    (Nat.le_of_lt Nat.lt_log2_self)
  unfold roundWithAccuracy
  simp only
  split
  · omega
  · exact isSizeable_pack hsecond.1 hmost.1 (by omega)

/-- A power of ten, rounded to a double, is sizeable. -/
theorem isSizeable_powerOfTen (power : Nat) :
    isSizeable (Json.powerOfTen power).toModel.unpack = true := by
  unfold Json.powerOfTen Float.ofScientific
  split
  · next hsmall =>
    -- The small powers are listed, and looked at one by one.
    have hlisted : ∀ power : Fin 23, isSizeable
        ((1 : Nat).toUInt64.toFloat * Float.exactlyRepresentablePowersOfTen[power]).toModel.unpack =
          true := by
      decide +kernel
    exact hlisted ⟨power, by omega⟩
  · have hbits : Format.binary64.mantissaBits = 53 := rfl
    change isSizeable
      (Float.Model.pack (UnpackedFloat.ofScientific Format.binary64 1 power)).unpack = true
    unfold UnpackedFloat.ofScientific
    rw [dif_neg (by decide)]
    split
    · rfl
    · split
      · omega
      · rw [if_pos (by omega)]
        simp only [UnpackedFloat.mul, hbits, Int.toNat_natCast]
        have hpower : 1 ≤ 10 ^ power := Nat.one_le_pow _ _ (by decide)
        have hleast : 2 ^ 53 ≤ 1 <<< 53 * 10 ^ power :=
          Nat.le_mul_of_pos_right (2 ^ 53) hpower
        have hlog := (Nat.le_log2 (by omega)).2 hleast
        exact isSizeable_roundWithAccuracy (by omega) (by omega)

/-- Each division by a power of ten keeps the exponent in bounds, so the result is finite. -/
theorem isFinite_scaleDown {fuel : Nat} {power : Nat} (hx : Bounded bound x.toModel.unpack)
    (hbound : 0 ≤ bound) (hsmall : bound + 54 * fuel ≤ 971) :
    (Json.scaleDown fuel x power).isFinite = true := by
  induction fuel generalizing bound x power with
  | zero => exact isFinite_of_bounded hx
  | succ fuel ih =>
      have hdivide : ∀ divisor,
          Bounded (bound + 54) (x / Json.powerOfTen divisor).toModel.unpack := by
        intro divisor
        exact bounded_div hx (isSizeable_powerOfTen divisor) hbound (by omega)
      unfold Json.scaleDown
      split
      · exact isFinite_of_bounded (hdivide power)
      · split
        · exact isFinite_of_bounded hx
        · exact ih (hdivide 308) (by omega) (by omega)

end Double

namespace Json

/-- What is scaled successfully is finite: too large numbers are refused. -/
theorem isFinite_scale {significand : Nat} {power : Int} {x : Float}
    (hsignificand : significand ≤ maxSignificand) (h : scale significand power = some x) :
    x.isFinite = true := by
  have hwhole := Double.bounded_ofNat (Nat.lt_succ_of_le hsignificand)
  simp only [scale] at h
  split at h
  · cases h
    exact Double.isFinite_scaleDown hwhole (by decide) (by decide)
  · split at h
    · cases h
      exact Double.isFinite_of_bounded hwhole
    · split at h
      · split at h
        · next hfinite =>
          cases h
          exact hfinite
        · cases h
      · cases h

/-- Digits are gathered only as long as they fit. -/
theorem gather_le {significand : Nat} {cs : List Char} (h : significand ≤ maxSignificand) :
    (gather significand cs).1 ≤ maxSignificand := by
  induction cs generalizing significand with
  | nil => exact h
  | cons c rest ih =>
      simp only [gather]
      split
      · next hnext => exact ih hnext
      · exact h

theorem isFinite_signed {negative : Bool} {x : Float} (h : x.isFinite = true) :
    (signed negative x).isFinite = true := by
  unfold signed
  split
  · exact Double.isFinite_neg h
  · exact h

theorem isFinite_of_scale {significand : Nat} {power : Int} {negative : Bool} {n : Number}
    (hsignificand : significand ≤ maxSignificand)
    (h : ((scale significand power).map fun x => Number.real (signed negative x)) = some n) :
    n.toFloat.isFinite = true := by
  rcases Option.map_eq_some_iff.1 h with ⟨x, hx, rfl⟩
  exact isFinite_signed (isFinite_scale hsignificand hx)

/-- A numeral stands for a finite number. -/
theorem Numeral.isFinite_value {numeral : Numeral} {n : Number} (h : numeral.value = some n) :
    n.toFloat.isFinite = true := by
  have hwhole : (gather 0 numeral.whole).1 ≤ maxSignificand := gather_le (Nat.zero_le _)
  have hnat : ∀ significand ≤ maxSignificand, (Float.ofNat significand).isFinite = true :=
    fun significand hle => Double.isFinite_of_bounded (Double.bounded_ofNat (Nat.lt_succ_of_le hle))
  simp only [Numeral.value] at h
  split at h
  · -- A whole number keeps its digits.
    split at h
    · cases h
      exact hnat _ hwhole
    · split at h
      · cases h
        exact Double.isFinite_neg (hnat _ hwhole)
      · cases h
        exact Double.isFinite_neg (hnat _ hwhole)
  · have hdigits := @gather_le _ (numeral.fraction.getD []) hwhole
    split at h
    · exact isFinite_of_scale hdigits h
    · split at h
      · split at h
        · cases h
          exact isFinite_signed rfl
        · cases h
      · exact isFinite_of_scale hdigits h

/-! ## Documents -/

inductive AllFinite : Json → Prop
  | null : AllFinite .null
  | bool (b : Bool) : AllFinite (.bool b)
  | number {n : Number} : n.toFloat.isFinite = true → AllFinite (.number n)
  | text (s : String) : AllFinite (.text s)
  | list {items : List Json} : (∀ item ∈ items, AllFinite item) → AllFinite (.list items)
  | object {members : List (String × Json)} :
      (∀ member ∈ members, AllFinite member.2) → AllFinite (.object members)
  | unreadable : AllFinite .unreadable

/-- What is inside of a document of finite numbers has finite numbers. -/
theorem AllFinite.part {j part : Json} (h : j.AllFinite) (hpart : part ∈ j.parts) :
    part.AllFinite := by
  cases h with
  | list hitems => exact hitems part hpart
  | object hmembers =>
      rcases List.mem_map.1 hpart with ⟨member, hmember, rfl⟩
      exact hmembers member hmember
  | _ => cases hpart

/-- A number that is read is finite, or not legible. -/
theorem allFinite_of_readNumber {cs rest : List Char} {j : Json}
    (h : readNumber cs = some (j, rest)) : j.AllFinite := by
  have hunsigned : ∀ negative cs, readUnsigned negative cs = some (j, rest) → j.AllFinite := by
    intro negative cs h
    rcases Option.bind_eq_some_iff.1 h with ⟨_, -, h⟩
    rcases Option.bind_eq_some_iff.1 h with ⟨_, -, h⟩
    rcases Option.bind_eq_some_iff.1 h with ⟨_, -, h⟩
    cases h
    unfold Numeral.toJson
    split
    · next hvalue => exact .number (Numeral.isFinite_value hvalue)
    · exact .unreadable
  unfold readNumber at h
  split at h
  · exact hunsigned _ _ h
  · exact hunsigned _ _ h

theorem allFinite_of_readWord {word : String} {value j : Json} {cs rest : List Char}
    (hvalue : value.AllFinite) (h : readWord word value cs = some (j, rest)) : j.AllFinite := by
  simp only [readWord] at h
  split at h
  · cases h
    exact hvalue
  · cases h

/-- An object has finite numbers if the values of its members have. -/
theorem allFinite_ofMembers {members : List (Option String × Json)}
    (h : ∀ member ∈ members, member.2.AllFinite) : (ofMembers members).AllFinite := by
  unfold ofMembers
  split
  · next named hnamed =>
    refine .object fun entry hentry => ?_
    rcases (exists_of_mapM hnamed).2 entry hentry with ⟨member, hmember, hentry⟩
    rcases Option.map_eq_some_iff.1 hentry with ⟨name, -, rfl⟩
    exact h member hmember
  · exact .unreadable

structure ReadsFinite (fuel : Nat) : Prop where
  value : ∀ {cs rest j}, readValue fuel cs = some (j, rest) → j.AllFinite
  items : ∀ {cs rest items}, readItems fuel cs = some (items, rest) →
    ∀ item ∈ items, item.AllFinite
  members : ∀ {cs rest members}, readMembers fuel cs = some (members, rest) →
    ∀ member ∈ members, member.2.AllFinite

namespace ReadsFinite

variable {fuel : Nat} {cs rest : List Char}

/-- One more unit of fuel: a value is one of its parts, each read with less. -/
theorem readValue (h : ReadsFinite fuel) {j : Json}
    (hread : Json.readValue (fuel + 1) cs = some (j, rest)) : j.AllFinite := by
  simp only [Json.readValue] at hread
  -- The cases are the first characters, as the reader tells them apart.
  split at hread
  case h_1 =>
    split at hread
    · cases hread
      exact .list (by simp)
    · rcases Option.map_eq_some_iff.1 hread with ⟨⟨items, left⟩, hitems, heq⟩
      cases heq
      exact .list (h.items hitems)
  case h_2 =>
    split at hread
    · cases hread
      exact .object (by simp)
    · rcases Option.map_eq_some_iff.1 hread with ⟨⟨members, left⟩, hmembers, heq⟩
      cases heq
      exact allFinite_ofMembers (h.members hmembers)
  case h_3 => exact allFinite_of_readWord .null hread
  case h_4 => exact allFinite_of_readWord (.bool true) hread
  case h_5 => exact allFinite_of_readWord (.bool false) hread
  case h_6 =>
    split at hread
    · rcases Option.map_eq_some_iff.1 hread with ⟨⟨text, left⟩, -, heq⟩
      cases heq
      cases text with
      | none => exact .unreadable
      | some text => exact .text text
    · exact allFinite_of_readNumber hread
  case h_7 => cases hread

theorem readItems (h : ReadsFinite fuel) {items : List Json}
    (hread : Json.readItems (fuel + 1) cs = some (items, rest)) :
    ∀ item ∈ items, item.AllFinite := by
  simp only [Json.readItems] at hread
  split at hread
  · cases hread
  · next item after hitem =>
    split at hread
    · rcases Option.map_eq_some_iff.1 hread with ⟨⟨others, last⟩, hothers, heq⟩
      cases heq
      exact List.forall_mem_cons.2 ⟨h.value hitem, h.items hothers⟩
    · cases hread
      exact List.forall_mem_singleton.2 (h.value hitem)
    · cases hread

theorem readMembers (h : ReadsFinite fuel) {members : List (Option String × Json)}
    (hread : Json.readMembers (fuel + 1) cs = some (members, rest)) :
    ∀ member ∈ members, member.2.AllFinite := by
  simp only [Json.readMembers] at hread
  split at hread
  · cases hread
  · split at hread
    · cases hread
    · split at hread
      · cases hread
      · split at hread
        · split at hread
          · cases hread
          · next value after hvalue =>
            split at hread
            · rcases Option.map_eq_some_iff.1 hread with ⟨⟨others, last⟩, hothers, heq⟩
              cases heq
              exact List.forall_mem_cons.2 ⟨h.value hvalue, h.members hothers⟩
            · cases hread
              exact List.forall_mem_singleton.2 (h.value hvalue)
            · cases hread
        · cases hread

end ReadsFinite

/-- By induction on the fuel. -/
theorem readsFinite (fuel : Nat) : ReadsFinite fuel := by
  induction fuel with
  | zero =>
      refine ⟨fun h => ?_, fun h => ?_, fun h => ?_⟩
      · simp [readValue] at h
      · simp [readItems] at h
      · simp [readMembers] at h
  | succ fuel ih => exact ⟨ih.readValue, ih.readItems, ih.readMembers⟩

/-- The numbers of a document that is read are finite. -/
theorem allFinite_of_parseForm {text : String} {j : Json} (h : parseForm text = some j) :
    j.AllFinite := by
  unfold parseForm parseChars at h
  split at h
  · next value rest hread =>
    split at h
    · cases h
      exact (readsFinite _).value hread
    · cases h
  · cases h

end Json
end StoryPlayer
