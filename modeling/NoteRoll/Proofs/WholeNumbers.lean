import Mathlib
import NoteRoll.Decimal.Shortest
import NoteRoll.Json.Basic

/-!
# Whole numbers in range

The reader of a stored piece rejects a number whose value is out of the range of
binary numbers. For a whole number of 64 bits that never happens, though the number
may well be rounded: what would have to overflow is the exponent, and it stays in the
hundreds where the format allows 971.

The bounds are loose on purpose. Rounding shifts a mantissa to the exponent that the
format wants, rounds it up or down, and shifts once more because the first shift may
have been one short. For the range it is enough that a shift raises the exponent by no
more than the width of the mantissa. That leaves one thing to be careful about: what
was packed is unpacked again between two operations, and that has to keep the bound.
-/

namespace NoteRoll

namespace Binary64

open Float.Model
open Float.Model.UnpackedFloat

/-- A finite value whose mantissa is multiplied by no more than a power of two. -/
def HasExponentLE (k : Int) : UnpackedFloat → Prop
  | .zero _ => True
  | .finite _ _ e _ => e ≤ k
  | .infinity _ | .notANumber => False

instance instDecidableHasExponentLE (k : Int) (x : UnpackedFloat) : Decidable (HasExponentLE k x) :=
  match x with
  | .zero _ => .isTrue trivial
  | .finite _ _ e _ => inferInstanceAs (Decidable (e ≤ k))
  | .infinity _ | .notANumber => .isFalse id

theorem HasExponentLE.isFinite {k : Int} {x : UnpackedFloat} (h : HasExponentLE k x) :
    x.isFinite = true := by
  cases x with
  | zero s => rfl
  | finite s m e hm => rfl
  | infinity s => exact h.elim
  | notANumber => exact h.elim

/-! ## Rounding -/

theorem mantissa_shiftRight_le (em : ExtendedMantissa) (n : Nat) :
    (em >>> n).mantissa ≤ em.mantissa := by
  show (n.repeat ExtendedMantissa.shiftRightOne em).mantissa ≤ em.mantissa
  induction n with
  | zero => exact Nat.le_refl _
  | succ n ih => exact Nat.le_trans (Nat.div_le_self _ 2) ih

theorem roundedMantissa_le (em : ExtendedMantissa) : em.roundedMantissa ≤ em.mantissa + 1 := by
  rw [ExtendedMantissa.roundedMantissa]
  cases em.accuracy with
  | exact => exact Nat.le_succ _
  | inexact o =>
      cases o with
      | lt => exact Nat.le_succ _
      | eq =>
          show em.mantissa + em.mantissa % 2 ≤ em.mantissa + 1
          omega
      | gt => exact Nat.le_refl _

theorem shiftToExponent_rounded_le (m : Nat) (e : Int) (a : Accuracy) (t : Int) :
    (shiftToExponent m e a t).1.roundedMantissa ≤ m + 1 := by
  have hmantissa : (ExtendedMantissa.ofMantissaAndAccuracy m a).mantissa = m := by
    cases a with
    | exact => rfl
    | inexact o => cases o <;> rfl
  have hshift := mantissa_shiftRight_le (.ofMantissaAndAccuracy m a) (t - e).toNat
  rw [hmantissa] at hshift
  exact Nat.le_trans (roundedMantissa_le _) (Nat.succ_le_succ hshift)

theorem log2_le_of_lt {m k : Nat} (h : m < 2 ^ k) : m.log2 ≤ k := by
  by_cases hm : m = 0
  · rw [hm, Nat.log2_zero]
    exact Nat.zero_le k
  · exact Nat.le_of_lt ((Nat.log2_lt hm).2 h)

/-- The exponent that the format wants lies no further up than the mantissa is wide. -/
theorem targetExponent_le {m k : Nat} (hm : m < 2 ^ k) {e j : Int} (he : e ≤ j) (hj : 0 ≤ j) :
    Format.binary64.targetExponent (totalExponent m e) ≤ j + k := by
  have hlog := log2_le_of_lt hm
  have hbits : Format.binary64.mantissaBits = 53 := rfl
  have hmin : Format.binary64.minExponent = -1074 := rfl
  rw [Format.targetExponent, totalExponent, hbits, hmin]
  omega

theorem shiftToTargetExponent_exponent_le {m k : Nat} (hm : m < 2 ^ k) {e j : Int} (he : e ≤ j)
    (hj : 0 ≤ j) (a : Accuracy) : (shiftToTargetExponent .binary64 m e a).2 ≤ j + k := by
  have htarget := targetExponent_le hm he hj
  simp only [shiftToTargetExponent, shiftToExponent]
  omega

theorem roundWithAccuracy_exponent {m k : Nat} (hm : m < 2 ^ k) {e j : Int} (he : e ≤ j)
    (hj : 0 ≤ j) (s : Sign) (a : Accuracy) :
    HasExponentLE (j + 2 * k + 1) (roundWithAccuracy .binary64 s m e a) := by
  have hfirst := shiftToTargetExponent_exponent_le hm he hj a
  have hrounded : (shiftToTargetExponent .binary64 m e a).1.roundedMantissa ≤ m + 1 :=
    shiftToExponent_rounded_le m e a _
  rw [roundWithAccuracy]
  cases h₁ : shiftToTargetExponent .binary64 m e a with
  | mk em₁ e₁ =>
      rw [h₁] at hfirst hrounded
      have hwide : em₁.roundedMantissa < 2 ^ (k + 1) := by
        have hle : em₁.roundedMantissa ≤ m + 1 := hrounded
        rw [Nat.pow_succ]
        omega
      have hsecond := shiftToTargetExponent_exponent_le hwide hfirst (by omega) .exact
      cases h₂ : shiftToTargetExponent .binary64 em₁.roundedMantissa e₁ .exact with
      | mk em₂ e₂ =>
          rw [h₂] at hsecond
          simp only [h₂]
          split
          · trivial
          · show e₂ ≤ j + 2 * k + 1
            omega

theorem round_exponent {m k : Nat} (hm : m < 2 ^ k) {e j : Int} (he : e ≤ j) (hj : 0 ≤ j)
    (s : Sign) : HasExponentLE (j + 2 * (k + 53 : Nat) + 1) (UnpackedFloat.round .binary64 s m e) := by
  have hshift : (e - Format.binary64.targetExponent (totalExponent m e)).toNat ≤ 53 := by
    have hbits : Format.binary64.mantissaBits = 53 := rfl
    rw [Format.targetExponent, totalExponent, hbits]
    omega
  have hwide : m <<< (e - Format.binary64.targetExponent (totalExponent m e)).toNat <
      2 ^ (k + 53) := by
    rw [Nat.shiftLeft_eq, Nat.pow_add]
    exact Nat.mul_lt_mul_of_lt_of_le hm (Nat.pow_le_pow_right (by decide) hshift)
      (Nat.two_pow_pos _)
  refine roundWithAccuracy_exponent hwide ?_ hj s .exact
  omega

/-! ## Packing -/

/-- The mantissas of binary numbers have 53 bits. -/
def HasMantissaLT : UnpackedFloat → Prop
  | .finite _ m _ _ => m < 2 ^ 53
  | _ => True

theorem unpack_mantissa (x : Float.Model) : HasMantissaLT x.unpack := by
  rw [Float.Model.unpack, UnpackedFloat.unpack]
  split
  · split <;> trivial
  · split
    · split
      · trivial
      · exact Nat.lt_of_lt_of_le (BitVec.isLt _) (by decide)
    · exact BitVec.isLt _

/-- Components whose exponent field is not all ones are unpacked as a finite value, with
the exponent of the field, and the least one for a field of zero. -/
theorem unpack_packComponents_exponent (s : Sign) {field : BitVec 11} (m : BitVec 52)
    (h : field ≠ -1#11) {k : Int} (hlow : -1074 ≤ k) (hk : (field.toNat : Int) - 1075 ≤ k) :
    HasExponentLE k (UnpackedFloat.unpack Format.binary64 (packComponents .binary64 s field m)) := by
  have hbias : Format.binary64.exponentBias = 1023 := by decide
  simp only [UnpackedFloat.unpack, unpackExponent_packComponents, unpackMantissa_packComponents, hbias]
  rw [if_neg h]
  split
  · next hzero =>
      split
      · trivial
      · show (field.toNat : Int) - _ + 1 ≤ k
        rw [hzero]
        show (0 : Int) - 1075 + 1 ≤ k
        omega
  · exact hk

/-- What is packed with an exponent in range is unpacked with one. -/
theorem unpack_pack_exponent {k : Int} {x : UnpackedFloat} (h : HasExponentLE k x)
    (hlow : -1074 ≤ k) (hhigh : k ≤ 971) :
    HasExponentLE k (Float.Model.pack x).unpack := by
  show HasExponentLE k (UnpackedFloat.unpack .binary64 (UnpackedFloat.pack .binary64 x))
  have hzero : ((0#11).toNat : Int) - 1075 ≤ k := by
    show (0 : Int) - 1075 ≤ k
    omega
  cases x with
  | zero s => exact unpack_packComponents_exponent s _ (by decide) hlow hzero
  | infinity s => exact h.elim
  | notANumber => exact h.elim
  | finite s m e hm =>
      have he : e ≤ k := h
      have hbias : Format.binary64.exponentBias = 1023 := by decide
      simp only [UnpackedFloat.pack, hbias]
      split
      · next hover => omega
      · next hfits =>
          split
          · refine unpack_packComponents_exponent s _ ?_ hlow ?_
            · intro hones
              have hfield : _ % 2 ^ 11 = 2047 := congrArg BitVec.toNat hones
              omega
            · rw [BitVec.toNat_ofNat]
              omega
          · exact unpack_packComponents_exponent s _ (by decide) hlow hzero

/-! ## Operations -/

theorem normalize_exponent {n : Int} {k : Nat} (h : n.natAbs < 2 ^ k) (s : Sign) :
    HasExponentLE (2 * (k + 53 : Nat) + 1) (UnpackedFloat.normalize .binary64 n 0 s) := by
  have hround : ∀ (s : Sign) (m : Nat), m < 2 ^ k →
      HasExponentLE (2 * (k + 53 : Nat) + 1) (UnpackedFloat.round .binary64 s m 0) := by
    intro s m hm
    have hexponent := round_exponent hm (Int.le_refl 0) (Int.le_refl 0) s
    rw [Int.zero_add] at hexponent
    exact hexponent
  rw [UnpackedFloat.normalize]
  split
  · exact hround _ _ (by omega)
  · trivial
  · exact hround _ _ (by omega)

theorem mul_exponent {j k : Nat} {x y : UnpackedFloat} (hx : HasExponentLE j x)
    (hmx : HasMantissaLT x) (hy : HasExponentLE k y) (hmy : HasMantissaLT y) :
    HasExponentLE ((j + k : Int) + 2 * (53 + 53 : Nat) + 1) (mul .binary64 x y) := by
  cases x with
  | infinity s => exact hx.elim
  | notANumber => exact hx.elim
  | zero s =>
      cases y with
      | infinity s => exact hy.elim
      | notANumber => exact hy.elim
      | zero s' => trivial
      | finite s' m' e' hm' => trivial
  | finite s m e hm =>
      cases y with
      | infinity s => exact hy.elim
      | notANumber => exact hy.elim
      | zero s' => trivial
      | finite s' m' e' hm' =>
          have he : e ≤ j := hx
          have he' : e' ≤ k := hy
          have hwide : m * m' < 2 ^ (53 + 53) := by
            rw [Nat.pow_add]
            exact Nat.mul_lt_mul'' hmx hmy
          exact roundWithAccuracy_exponent hwide (by omega) (by omega) _ .exact

theorem toFloat_exponent (u : UInt64) : HasExponentLE 235 u.toFloat.toModel.unpack := by
  have hwidth : (u.toNat : Int).natAbs < 2 ^ 64 := u.toBitVec.isLt
  exact unpack_pack_exponent (normalize_exponent hwidth .positive) (by decide) (by decide)

/-- A whole number is scaled by no power of ten where it is read. -/
theorem ofScientific_exponent {n : Nat} (h : n < 2 ^ 64) :
    HasExponentLE 235 (UnpackedFloat.ofScientific .binary64 n 0) := by
  have hwide : n <<< Format.binary64.mantissaBits * 10 ^ (0 : Int).toNat < 2 ^ (64 + 53) := by
    show n <<< 53 * 1 < _
    rw [Nat.shiftLeft_eq, Nat.mul_one, Nat.pow_add]
    exact Nat.mul_lt_mul_of_pos_right h (Nat.two_pow_pos 53)
  rw [UnpackedFloat.ofScientific]
  split
  · trivial
  · split
    · next hlarge => exact absurd hlarge (by decide)
    · split
      · trivial
      · rw [if_pos (Int.le_refl 0), UnpackedFloat.mul]
        exact roundWithAccuracy_exponent hwide (by decide) (Int.le_refl 0) _ .exact

theorem isFinite_mul {j k : Nat} {x y : Float} (hx : HasExponentLE j x.toModel.unpack)
    (hy : HasExponentLE k y.toModel.unpack) (hjk : j + k ≤ 757) : (x * y).isFinite = true := by
  have hproduct := mul_exponent hx (unpack_mantissa _) hy (unpack_mantissa _)
  exact (unpack_pack_exponent hproduct (by omega) (by omega)).isFinite

/-- A whole number of 64 bits is read as a finite number. -/
theorem isFinite_ofScientific {n : Nat} (h : n < 2 ^ 64) :
    (Float.ofScientific n false 0).isFinite = true := by
  rw [Float.ofScientific]
  split
  · -- The power of ten that the number is scaled by is one.
    have hone : HasExponentLE (0 : Nat) (Float.ofBits 0x3FF0000000000000).toModel.unpack := by
      decide +kernel
    exact isFinite_mul (toFloat_exponent n.toUInt64) hone (by decide)
  · exact (unpack_pack_exponent (ofScientific_exponent h) (by decide) (by decide)).isFinite

end Binary64

/-- No whole number of 64 bits, with a sign or without, is out of the range of numbers. -/
theorem Json.Literal.value?_integer {n : Int} (h : n.natAbs < 2 ^ 64) :
    ((Json.Literal.integer n).value? : Option Float).isSome = true := by
  have hlength : (Nat.toDigits 10 n.natAbs).length ≤ 20 :=
    (Nat.length_toDigits_le_iff (by decide) (by decide)).2 (Nat.lt_of_lt_of_le h (by decide))
  show (Decimal.toFloat? ⟨decide (n < 0), n.natAbs, 0⟩).isSome = true
  simp only [Decimal.toFloat?]
  split
  · rfl
  · split
    · next hlong => exact absurd hlong (by omega)
    · have hfinite := Binary64.isFinite_ofScientific h
      have hwhole : ¬ (0 : Int) < 0 := by decide
      rw [if_neg hwhole, Int.toNat_zero, if_pos hfinite]
      rfl

end NoteRoll
