import Mathlib
import NoteRoll.Decimal.Scaled
import NoteRoll.Piece.Format
import NoteRoll.Proofs.JsonLexemes
import NoteRoll.Proofs.SumsInRange

/-!
# Numbers that are read are finite

Where a decimal is multiplied by a power of ten, the reader looks whether the product is in
range. Where it is divided it does not, and need not: the digits have 64 bits, and the powers
of ten are all above one half. The division of a very small number goes on in steps, each by
the greatest power. The first step leaves less than any number of 64 bits, and so does every
further one; that is why a bound on the exponents is kept by all of them.
-/

namespace NoteRoll

namespace Binary64

open Float.Model
open Float.Model.UnpackedFloat

/-! ## Quotients -/

/-- A value other than zero whose mantissa is multiplied by no less than a power of two. -/
def HasExponentGE (k : Int) : UnpackedFloat → Prop
  | .finite _ _ e _ => k ≤ e
  | .zero _ | .infinity _ | .notANumber => False

instance instDecidableHasExponentGE (k : Int) (x : UnpackedFloat) : Decidable (HasExponentGE k x) :=
  match x with
  | .finite _ _ e _ => inferInstanceAs (Decidable (k ≤ e))
  | .zero _ | .infinity _ | .notANumber => .isFalse id

/-- A quotient is computed with a few more bits than both mantissas have. -/
theorem divCore_lt {m m' : Nat} (hm : m < 2 ^ 53) (hm' : m' < 2 ^ 53) (e e' : Int) :
    (divCore .binary64 m e m' e').1 < 2 ^ 160 := by
  have hbits : Format.binary64.mantissaBits = 53 := rfl
  have hlog := log2_le_of_lt hm'
  rw [divCore]
  dsimp only
  generalize ht : min (e - e') (Format.binary64.targetExponent
    (totalExponent m e - totalExponent m' e')) = t
  have hshift : (e - e' - t).toNat ≤ 107 := by
    rw [Format.targetExponent, totalExponent, totalExponent, hbits] at ht
    omega
  refine Nat.lt_of_le_of_lt (Nat.div_le_self _ _) ?_
  calc m <<< (e - e' - t).toNat = m * 2 ^ (e - e' - t).toNat := Nat.shiftLeft_eq _ _
    _ < 2 ^ 53 * 2 ^ (e - e' - t).toNat := Nat.mul_lt_mul_of_pos_right hm (Nat.two_pow_pos _)
    _ = 2 ^ (53 + (e - e' - t).toNat) := (Nat.pow_add _ _ _).symm
    _ ≤ 2 ^ 160 := Nat.pow_le_pow_right (by decide) (by omega)

theorem div_exponent {j k l : Int} {x y : UnpackedFloat} (hx : HasExponentLE j x)
    (hmx : HasMantissaLT x) (hy : HasExponentGE k y) (hmy : HasMantissaLT y)
    (hl : j - k + 321 ≤ l) (hlow : 321 ≤ l) : HasExponentLE l (div .binary64 x y) := by
  cases y with
  | infinity s => exact hy.elim
  | notANumber => exact hy.elim
  | zero s => exact hy.elim
  | finite s' m' e' hm' =>
      cases x with
      | infinity s => exact hx.elim
      | notANumber => exact hx.elim
      | zero s => trivial
      | finite s m e hm =>
          have he : e ≤ j := hx
          have he' : k ≤ e' := hy
          have hle : (divCore .binary64 m e m' e').2.1 ≤ l - 321 :=
            (min_le_left _ _).trans (by omega)
          have hround := roundWithAccuracy_exponent (divCore_lt hmx hmy e e') hle (by omega)
            (s / s') (divCore .binary64 m e m' e').2.2
          exact hround.mono (by omega)

theorem quotient_exponent {j k l : Int} {x y : Float} (hx : HasExponentLE j x.toModel.unpack)
    (hy : HasExponentGE k y.toModel.unpack) (hl : j - k + 321 ≤ l) (hlow : 321 ≤ l)
    (hhigh : l ≤ 971) : HasExponentLE l (x / y).toModel.unpack :=
  unpack_pack_exponent (div_exponent hx (unpack_mantissa _) hy (unpack_mantissa _) hl hlow)
    (by omega) hhigh

/-- The powers of ten that numbers are divided by at once. -/
theorem power_exponent : ∀ n ≤ Decimal.maxPower,
    HasExponentGE (-52) (Decimal.power n : Float).toModel.unpack := by decide +kernel

theorem maxPower_exponent {x : Float} (h : Decimal.power Decimal.maxPower = x) :
    HasExponentGE 321 x.toModel.unpack := by
  rw [← h]
  decide +kernel

theorem dividedByPower_exponent {x : Float} (hx : HasExponentLE 321 x.toModel.unpack) (n : Nat) :
    (Decimal.dividedByPower x n).isFinite = true := by
  fun_induction Decimal.dividedByPower x n with
  | case1 x n hn =>
      have hquotient : HasExponentLE 694 (x / Decimal.power n).toModel.unpack :=
        quotient_exponent hx (power_exponent n hn) (by decide) (by decide) (by decide)
      exact hquotient.isFinite
  | case2 x n hn hzero => exact hx.isFinite
  | case3 x n hn hzero ih =>
      -- The power is kept closed: its digits would be written out wherever it is looked at.
      generalize hmax : (Decimal.power Decimal.maxPower : Float) = largest at ih ⊢
      exact ih (quotient_exponent hx (maxPower_exponent hmax) (by decide) (by decide) (by decide))

theorem neg_exponent {k : Int} {x : UnpackedFloat} (h : HasExponentLE k x) :
    HasExponentLE k x.neg := by
  cases x <;> exact h

theorem isFinite_neg {x : Float} (h : x.isFinite = true) : (-x).isFinite = true :=
  (unpack_pack_exponent (neg_exponent (unpack_exponent h)) (by decide) (by decide)).isFinite

theorem ofNat_exponent {n : Nat} (h : n < 2 ^ 64) :
    HasExponentLE 235 (Scalar.ofNat n : Float).toModel.unpack := by
  show HasExponentLE 235 (if -9007199254740992 ≤ (n : Int) ∧ (n : Int) ≤ 9007199254740992 then
    ofWhole n else Float.ofInt n).toModel.unpack
  split
  · have hnonneg : ¬ (n : Int) < 0 := by omega
    rw [ofWhole, if_neg hnonneg]
    exact toFloat_exponent _
  · next hlarge =>
      have hwide : ¬ (n < 2 ^ 53 ∧ 0 ≤ 22) := by omega
      show HasExponentLE 235 (Float.ofScientific n false 0).toModel.unpack
      rw [Float.ofScientific, dif_neg hwide]
      exact unpack_pack_exponent (ofScientific_exponent h) (by decide) (by decide)

end Binary64

/-! ## Literals -/

namespace Decimal

theorem isFinite_signed {x : Float} (h : x.isFinite = true) (negative : Bool) :
    (if negative then -x else x).isFinite = true := by
  split
  · exact Binary64.isFinite_neg h
  · exact h

theorem isFinite_toFloat? {d : Decimal} {x : Float} (h : d.toFloat? = some x) :
    x.isFinite = true := by
  simp only [toFloat?] at h
  split at h
  · cases h
    exact isFinite_signed (by decide +kernel) _
  · split at h
    · cases h
    · generalize (if d.exponent < 0 then Float.ofScientific d.digits true (-d.exponent).toNat
        else Float.ofScientific d.digits false d.exponent.toNat) = y at h
      split at h
      · next hfinite =>
          cases h
          exact isFinite_signed hfinite _
      · cases h

theorem isFinite_timesPower? {x y : Float} (hx : x.isFinite = true) {n : Nat}
    (h : timesPower? x n = some y) : y.isFinite = true := by
  simp only [timesPower?] at h
  split at h
  · generalize x * power n = z at h
    split at h
    · next hfinite =>
        cases h
        exact hfinite
    · cases h
  · split at h
    · cases h
      exact hx
    · cases h

theorem isFinite_scaled? {d : Decimal} (hd : d.digits ≤ Json.maxDigits) {x : Float}
    (h : d.scaled? = some x) : x.isFinite = true := by
  have hdigits := Binary64.ofNat_exponent (Nat.lt_succ_of_le hd)
  rw [scaled?] at h
  obtain ⟨y, hy, hx⟩ : ∃ y : Float, (if d.exponent < 0 then
      some (dividedByPower (Scalar.ofNat d.digits) d.exponent.natAbs)
      else timesPower? (Scalar.ofNat d.digits) d.exponent.natAbs) = some y ∧
      (if d.negative then -y else y) = x := by
    split at h
    · next hneg =>
        obtain ⟨y, hy, rfl⟩ := Option.map_eq_some_iff.1 h
        exact ⟨y, hy, if_pos hneg⟩
    · next hneg => exact ⟨x, h, if_neg hneg⟩
  rw [← hx]
  refine isFinite_signed ?_ _
  split at hy
  · cases hy
    exact Binary64.dividedByPower_exponent (hdigits.mono (by decide)) _
  · exact isFinite_timesPower? hdigits.isFinite hy

end Decimal

namespace Json

/-- The digits of a literal have 64 bits, as far as they are scaled by a power of ten. -/
def Literal.Fits : Literal → Prop
  | .integer _ => True
  | .decimal d => d.digits ≤ maxDigits

theorem keepDigits_le {kept : Nat} (h : kept ≤ maxDigits) (cs : List Char) :
    (keepDigits kept cs).1 ≤ maxDigits := by
  induction cs generalizing kept with
  | nil => exact h
  | cons c cs ih =>
      rw [keepDigits]
      split
      · next hmore => exact ih hmore
      · exact h

theorem decimalOf_fits (negative : Bool) (whole places : List Char) (exponent : Int) :
    (decimalOf negative whole places exponent).digits ≤ maxDigits :=
  keepDigits_le (keepDigits_le (Nat.zero_le _) whole) places

theorem wholeLiteral_fits (negative : Bool) (whole : List Char) :
    (wholeLiteral negative whole).Fits := by
  rw [wholeLiteral]
  split
  · trivial
  · split
    · trivial
    · exact decimalOf_fits _ _ _ _

theorem literalOf_fits (negative : Bool) (whole : List Char) (fraction : Option (List Char))
    (exponent : Option Int) : (literalOf negative whole fraction exponent).Fits := by
  rw [literalOf.eq_def]
  split
  · exact wholeLiteral_fits _ _
  · exact decimalOf_fits _ _ _ _

theorem readNumber_fits {purpose : Purpose} {cs rest : List Char} {l : Literal}
    (h : readNumber purpose cs = .ok (l, rest)) : l.Fits := by
  rcases readNumber_ok_iff.1 h with ⟨_, -, hread⟩ | ⟨-, hread⟩
  all_goals
    obtain ⟨_, _, _, _, _, -, -, -, rfl⟩ := readUnsigned_ok_iff.1 hread
    exact literalOf_fits _ _ _ _

theorem Literal.isFinite_value? {l : Literal} {x : Float} (hl : l.Fits)
    (h : (l.value? : Option Float) = some x) : x.isFinite = true := by
  cases l with
  | integer n => exact Decimal.isFinite_toFloat? h
  | decimal d => exact Decimal.isFinite_scaled? hl h

end Json

end NoteRoll
