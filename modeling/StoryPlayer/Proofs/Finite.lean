import Mathlib
import StoryPlayer.Formula.Datum

/-!
# Finite doubles

A whole number of 64 bits becomes a finite double: rounding may raise its exponent, but by far not
to the one that stands for numbers beyond all doubles.

- `Double.Moderate` says that the exponent is small enough for a number that is packed,
- `Double.isFinite_toFloat`, `Double.isFinite_neg` and `Double.isFinite_double` give finite doubles,
- `Double.beq_self` says that a finite double is equal to itself.
-/

namespace StoryPlayer
namespace Double

open Float.Model Float.Model.UnpackedFloat

/-- A double is finite unless its exponent has all bits set. -/
theorem isFinite_unpack {b : BitVec Format.binary64.numBits} (h : unpackExponent b ≠ -1#_) :
    (UnpackedFloat.unpack Format.binary64 b).isFinite = true := by
  unfold UnpackedFloat.unpack
  simp only [if_neg h]
  split
  · split <;> rfl
  · rfl

/-- The number is zero, or its exponent is one that a finite double can have. -/
def Moderate (u : UnpackedFloat) : Prop :=
  match u with
  | .notANumber => False
  | .infinity _ => False
  | .zero _ => True
  | .finite _ _ exponent _ => exponent ≤ 971

/-- A number whose exponent is moderate is a finite double. -/
theorem isFinite_pack {u : UnpackedFloat} (h : Moderate u) :
    (Float.ofModel (Float.Model.pack u)).isFinite = true := by
  -- Only an exponent of all ones stands for something that is not finite.
  have hexponent : unpackExponent (UnpackedFloat.pack Format.binary64 u) ≠ -1#_ := by
    cases u with
    | notANumber => exact h.elim
    | infinity sign => exact h.elim
    | zero sign =>
        simp only [UnpackedFloat.pack, packedZero, unpackExponent_packComponents]
        decide
    | finite sign mantissa exponent hpos =>
        have hle : exponent ≤ 971 := h
        have hbias : (Format.exponentBias Format.binary64 : Int) = 1023 := rfl
        simp only [UnpackedFloat.pack, hbias]
        split
        · next hlarge => omega
        · next hsmall =>
          split
          · simp only [unpackExponent_packComponents]
            intro heq
            have hnat := congrArg BitVec.toNat heq
            have hones : (-1#11).toNat = 2047 := rfl
            rw [BitVec.toNat_ofNat, hones] at hnat
            omega
          · simp only [unpackExponent_packComponents]
            decide
  exact isFinite_unpack hexponent

theorem mantissa_shiftRight (em : ExtendedMantissa) (n : Nat) :
    (em >>> n).mantissa ≤ em.mantissa := by
  change (Nat.repeat ExtendedMantissa.shiftRightOne n em).mantissa ≤ em.mantissa
  induction n with
  | zero => exact Nat.le_refl _
  | succ n ih =>
      have hhalf : (Nat.repeat ExtendedMantissa.shiftRightOne (n + 1) em).mantissa =
          (Nat.repeat ExtendedMantissa.shiftRightOne n em).mantissa / 2 := rfl
      omega

/-- Rounding adds at most one to a mantissa. -/
theorem roundedMantissa_le (em : ExtendedMantissa) : em.roundedMantissa ≤ em.mantissa + 1 := by
  unfold ExtendedMantissa.roundedMantissa Accuracy.roundToNearestEven
  split <;> omega

/-- Shifting to the target exponent keeps small mantissas small and exponents moderate. -/
theorem shiftToTargetExponent_le {mantissa k : Nat} (exponent : Int) (hmantissa : mantissa ≤ 2 ^ k) :
    (shiftToTargetExponent Format.binary64 mantissa exponent .exact).1.mantissa ≤ 2 ^ k ∧
      (shiftToTargetExponent Format.binary64 mantissa exponent .exact).2 ≤
        max exponent (max (k + exponent - 52) 0) := by
  have hlog : mantissa.log2 ≤ k := by
    by_cases hzero : mantissa = 0
    · simp [hzero]
    · have hlt : mantissa < 2 ^ (k + 1) :=
        Nat.lt_of_le_of_lt hmantissa (Nat.pow_lt_pow_succ (by decide))
      exact Nat.le_of_lt_succ ((Nat.log2_lt hzero).2 hlt)
  have hbits : (Format.binary64.mantissaBits : Int) = 53 := rfl
  have hmin : Format.binary64.minExponent = -1074 := rfl
  constructor
  · exact Nat.le_trans (mantissa_shiftRight _ _) hmantissa
  · simp only [shiftToTargetExponent, shiftToExponent, Format.targetExponent, totalExponent, hbits,
      hmin]
    omega

/-- Rounding a whole number of at most 116 bits does not leave the doubles. -/
theorem moderate_roundWithAccuracy {sign : Sign} {mantissa : Nat} {exponent : Int}
    (hmantissa : mantissa ≤ 2 ^ 116) (hexponent : exponent ≤ 0) :
    Moderate (roundWithAccuracy Format.binary64 sign mantissa exponent .exact) := by
  have hfirst := shiftToTargetExponent_le exponent hmantissa
  have hrounded := roundedMantissa_le
    (shiftToTargetExponent Format.binary64 mantissa exponent .exact).1
  have hsecond := @shiftToTargetExponent_le
    (shiftToTargetExponent Format.binary64 mantissa exponent .exact).1.roundedMantissa 117
    (shiftToTargetExponent Format.binary64 mantissa exponent .exact).2 (by omega)
  unfold roundWithAccuracy
  simp only
  split
  · trivial
  · change _ ≤ (971 : Int)
    omega

/-- A whole number of 64 bits is a finite double. -/
theorem isFinite_toFloat (n : UInt64) : n.toFloat.isFinite = true := by
  have hn : n.toNat < 2 ^ 64 := n.toNat_lt
  refine isFinite_pack (u := UnpackedFloat.ofUInt64 Format.binary64 n) ?_
  unfold UnpackedFloat.ofUInt64 UnpackedFloat.ofNat UnpackedFloat.ofInt UnpackedFloat.normalize
  split
  · next hneg =>
    rw [Int.compare_eq_lt] at hneg
    omega
  · trivial
  · apply moderate_roundWithAccuracy
    · -- The mantissa is moved up by as many bits as it is short of 53.
      have hbits : (Format.binary64.mantissaBits : Int) = 53 := rfl
      have hmin : Format.binary64.minExponent = -1074 := rfl
      have hshift : (0 - Format.binary64.targetExponent (totalExponent n.toNat 0)).toNat ≤ 52 := by
        simp only [Format.targetExponent, totalExponent, hbits, hmin]
        omega
      have hpower := Nat.pow_le_pow_right (by decide : 0 < 2) hshift
      have hscaled := Nat.mul_le_mul (Nat.le_of_lt hn) hpower
      rw [← Nat.shiftLeft_eq, ← Nat.pow_add] at hscaled
      exact hscaled
    · exact Int.sub_nonpos_of_le (Int.natCast_nonneg _)

/-- A finite double has a moderate exponent. -/
theorem moderate_unpack {b : BitVec Format.binary64.numBits}
    (h : (UnpackedFloat.unpack Format.binary64 b).isFinite = true) :
    Moderate (UnpackedFloat.unpack Format.binary64 b) := by
  have hbias : (Format.exponentBias Format.binary64 : Int) = 1023 := rfl
  unfold UnpackedFloat.unpack at h ⊢
  simp only [hbias] at h ⊢
  split at h
  · split at h <;> cases h
  · next hones =>
    have hlt : (unpackExponent b).toNat < 2048 := (unpackExponent b).isLt
    have hne : (unpackExponent b).toNat ≠ 2047 := by
      intro heq
      exact hones (BitVec.eq_of_toNat_eq heq)
    simp only [if_neg hones]
    split
    · next hzero =>
      have hnone : (unpackExponent b).toNat = 0 := by
        rw [hzero]
        rfl
      split
      · trivial
      · change _ ≤ (971 : Int)
        omega
    · change _ ≤ (971 : Int)
      omega

/-- The sign does not matter. -/
theorem isFinite_neg {x : Float} (h : x.isFinite = true) : (-x).isFinite = true := by
  refine isFinite_pack (u := UnpackedFloat.neg x.toModel.unpack) ?_
  have hmoderate : Moderate x.toModel.unpack := moderate_unpack h
  cases hx : x.toModel.unpack with
  | notANumber =>
      rw [hx] at hmoderate
      exact hmoderate
  | infinity sign =>
      rw [hx] at hmoderate
      exact hmoderate
  | zero sign => trivial
  | finite sign mantissa exponent hpos =>
      rw [hx] at hmoderate
      exact hmoderate

/-- A whole number that leaves a formula is a finite double. -/
theorem isFinite_double (n : Int) : (Formula.Datum.double n).isFinite = true := by
  have hsize := isFinite_toFloat (UInt64.ofNat n.natAbs)
  unfold Formula.Datum.double
  split
  · exact isFinite_neg hsize
  · exact hsize

/-- A finite double is equal to itself. -/
theorem beq_self {x : Float} (h : x.isFinite = true) : (x == x) = true := by
  change x.toModel.unpack.isFinite = true at h
  change Float.Model.UnpackedFloat.beq x.toModel.unpack x.toModel.unpack = true
  generalize x.toModel.unpack = u at h ⊢
  cases u with
  | notANumber => cases h
  | infinity _ => cases h
  | zero _ => rfl
  | finite s _ _ _ =>
      cases s <;> simp [Float.Model.UnpackedFloat.beq, Float.Model.UnpackedFloat.compare]

end Double
end StoryPlayer
