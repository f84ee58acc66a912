import Mathlib
import NoteRoll.Piece
import NoteRoll.Proofs.WholeNumbers

/-!
# Sums in range

A placed note begins some bars after the beginning of its clip, and the beats of the bars
are added to its onset. The sum is finite whatever finite number the onset is: the bars
come to so little next to the largest numbers that the sum is rounded back to where it was.

The largest mantissa is the one case that has an argument in it. Anything that rounds it up
would carry the sum out of range, and what keeps it from that is the round bit. The bit
behind the last one is zero since less than half a unit was added.
-/

namespace NoteRoll

namespace Binary64

open Float.Model
open Float.Model.UnpackedFloat

/-! ## Shifts -/

theorem shiftRight_mantissa (em : ExtendedMantissa) (n : Nat) :
    (em >>> n).mantissa = em.mantissa / 2 ^ n := by
  induction n with
  | zero => exact (Nat.div_one _).symm
  | succ n ih =>
      show (em >>> n).mantissa / 2 = _
      rw [ih, Nat.div_div_eq_div_mul, Nat.pow_succ]

theorem shiftRight_roundBit (em : ExtendedMantissa) (n : Nat) :
    (em >>> (n + 1)).roundBit = (em.mantissa / 2 ^ n % 2 != 0) := by
  show ((em >>> n).mantissa % 2 != 0) = _
  rw [shiftRight_mantissa]

theorem roundedMantissa_of_roundBit {em : ExtendedMantissa} (h : em.roundBit = false) :
    em.roundedMantissa = em.mantissa := by
  obtain ⟨m, roundBit, stickyBit⟩ := em
  cases h
  cases stickyBit <;> rfl

/-- Less than half a unit above the largest mantissa, rounding goes down to it. -/
theorem roundedMantissa_top {em : ExtendedMantissa} {n : Nat}
    (h : em.mantissa < (2 ^ 53 - 1) * 2 ^ (n + 1) + 2 ^ n) :
    (em >>> (n + 1)).roundedMantissa < 2 ^ 53 := by
  -- In half units there are at most as many as in the largest mantissa, and that is even.
  have hhalf : em.mantissa / 2 ^ n < 2 * (2 ^ 53 - 1) + 1 := by
    rw [Nat.div_lt_iff_lt_mul (Nat.two_pow_pos n)]
    calc em.mantissa < (2 ^ 53 - 1) * 2 ^ (n + 1) + 2 ^ n := h
      _ = (2 * (2 ^ 53 - 1) + 1) * 2 ^ n := by rw [Nat.pow_succ]; ring
  have hmantissa : (em >>> (n + 1)).mantissa = em.mantissa / 2 ^ n / 2 := by
    rw [shiftRight_mantissa, Nat.pow_succ, Nat.div_div_eq_div_mul]
  by_cases hdown : (em >>> (n + 1)).roundBit = false
  · rw [roundedMantissa_of_roundBit hdown, hmantissa]
    omega
  · rw [shiftRight_roundBit] at hdown
    have hodd : em.mantissa / 2 ^ n % 2 = 1 := by
      rw [bne_eq_false_iff_eq] at hdown
      omega
    have hup := roundedMantissa_le (em >>> (n + 1))
    rw [hmantissa] at hup
    omega

/-! ## Rounding below the largest number -/

/-- What is below half a unit above the largest finite number. -/
def BelowTop (m : Nat) (e : Int) : Prop :=
  ∃ n : Nat, e = 970 - n ∧ m < (2 ^ 53 - 1) * 2 ^ (n + 1) + 2 ^ n

theorem BelowTop.decrease {m : Nat} {e : Int} (h : BelowTop m e) (d : Nat) :
    BelowTop (m <<< d) (e - d) := by
  obtain ⟨n, rfl, hm⟩ := h
  refine ⟨n + d, by omega, ?_⟩
  calc m <<< d = m * 2 ^ d := Nat.shiftLeft_eq m d
    _ < ((2 ^ 53 - 1) * 2 ^ (n + 1) + 2 ^ n) * 2 ^ d :=
        Nat.mul_lt_mul_of_pos_right hm (Nat.two_pow_pos d)
    _ = (2 ^ 53 - 1) * 2 ^ (n + d + 1) + 2 ^ (n + d) := by ring

/-- The exponent that the format wants, for a mantissa of so many bits. -/
theorem targetExponent_le_of_lt {m b : Nat} (hm : m < 2 ^ b) (hb : 0 < b) {e k : Int}
    (hk : e + b - 53 ≤ k) (hlow : -1074 ≤ k) :
    Format.binary64.targetExponent (totalExponent m e) ≤ k := by
  have hlog : m.log2 + 1 ≤ b := by
    by_cases hzero : m = 0
    · rw [hzero, Nat.log2_zero]
      exact hb
    · exact (Nat.log2_lt hzero).2 hm
  have hbits : Format.binary64.mantissaBits = 53 := rfl
  have hmin : Format.binary64.minExponent = -1074 := rfl
  rw [Format.targetExponent, totalExponent, hbits, hmin]
  omega

/-- Shifted to the exponent that the format wants, a mantissa has no more bits than the
format. -/
theorem shifted_lt (m : Nat) (e : Int) :
    m / 2 ^ (Format.binary64.targetExponent (totalExponent m e) - e).toNat < 2 ^ 53 := by
  have hbits : Format.binary64.mantissaBits = 53 := rfl
  have hwidth : m.log2 + 1 ≤
      53 + (Format.binary64.targetExponent (totalExponent m e) - e).toNat := by
    rw [Format.targetExponent, totalExponent, hbits]
    omega
  rw [Nat.div_lt_iff_lt_mul (Nat.two_pow_pos _), ← Nat.pow_add]
  exact Nat.lt_of_lt_of_le Nat.lt_log2_self (Nat.pow_le_pow_right (by decide) hwidth)

theorem BelowTop.targetExponent_le {m : Nat} {e : Int} (h : BelowTop m e) :
    Format.binary64.targetExponent (totalExponent m e) ≤ 971 := by
  obtain ⟨n, rfl, hm⟩ := h
  have hwide : m < 2 ^ (n + 54) := by
    refine hm.trans_le ?_
    have hone : 2 ^ (n + 1) = 2 * 2 ^ n := by ring
    have hall : 2 ^ (n + 54) = 2 ^ 54 * 2 ^ n := by ring
    omega
  exact targetExponent_le_of_lt hwide (by omega) (by omega) (by decide)

theorem BelowTop.roundWithAccuracy {m : Nat} {e : Int} (h : BelowTop m e) (s : Sign) :
    HasExponentLE 971 (roundWithAccuracy .binary64 s m e .exact) := by
  have htarget := h.targetExponent_le
  have hmin : -1074 ≤ Format.binary64.targetExponent (totalExponent m e) := le_max_right _ _
  have hshifted := shifted_lt m e
  obtain ⟨n, he, hm⟩ := h
  have hrounded (k : Nat) :
      (ExtendedMantissa.ofMantissaAndAccuracy m .exact >>> k).roundedMantissa ≤ m / 2 ^ k + 1 := by
    have hle := roundedMantissa_le (ExtendedMantissa.ofMantissaAndAccuracy m .exact >>> k)
    rwa [shiftRight_mantissa] at hle
  rw [UnpackedFloat.roundWithAccuracy, shiftToTargetExponent, shiftToExponent]
  generalize Format.binary64.targetExponent (totalExponent m e) = t at htarget hmin hshifted ⊢
  dsimp only
  -- Unless the exponent is the greatest one already, it does no harm to be carried once.
  have hfinal : Format.binary64.targetExponent (totalExponent
      (ExtendedMantissa.ofMantissaAndAccuracy m .exact >>> (t - e).toNat).roundedMantissa
      (e + (t - e).toNat)) ≤ 971 := by
    rcases Int.lt_or_le (e + (t - e).toNat) 971 with hlow | htop
    · have hcarried := (hrounded (t - e).toNat).trans hshifted
      exact targetExponent_le_of_lt (b := 54) (hcarried.trans_lt (by decide)) (by decide)
        (by omega) (by decide)
    · have hshift : (t - e).toNat = n + 1 := by omega
      rw [hshift]
      exact targetExponent_le_of_lt (roundedMantissa_top hm) (by decide) (by omega) (by decide)
  rw [shiftToTargetExponent, shiftToExponent]
  dsimp only
  split
  · trivial
  · show e + _ + _ ≤ 971
    omega

theorem BelowTop.round {m : Nat} {e : Int} (h : BelowTop m e) (s : Sign) :
    HasExponentLE 971 (UnpackedFloat.round .binary64 s m e) :=
  (h.decrease _).roundWithAccuracy s

theorem BelowTop.normalize {m : Int} {e : Int} (h : BelowTop m.natAbs e) (s : Sign) :
    HasExponentLE 971 (UnpackedFloat.normalize .binary64 m e s) := by
  rw [UnpackedFloat.normalize]
  split
  · next hneg =>
      rw [compare_lt_iff_lt] at hneg
      have habs : (-m).toNat = m.natAbs := by omega
      exact BelowTop.round (by rwa [habs]) _
  · trivial
  · next hpos =>
      rw [compare_gt_iff_gt] at hpos
      have habs : m.toNat = m.natAbs := by omega
      exact BelowTop.round (by rwa [habs]) _

/-! ## Adding -/

/-- Finite numbers have exponents of up to 971. -/
theorem unpack_exponent {x : Float.Model} (h : x.unpack.isFinite = true) :
    HasExponentLE 971 x.unpack := by
  have hbias : Format.binary64.exponentBias = 1023 := by decide
  rw [Float.Model.unpack] at h ⊢
  simp only [UnpackedFloat.unpack, hbias] at h ⊢
  generalize (unpackExponent x.toBits.toBitVec : BitVec Format.binary64.exponentBits) = field at h ⊢
  have hwidth : field.toNat < 2048 := field.isLt
  split at h
  · split at h <;> cases h
  · next hfield =>
      have hones : field.toNat ≠ 2047 := fun heq => hfield (BitVec.eq_of_toNat_eq heq)
      rw [if_neg hfield]
      split
      · next hzero =>
          split
          · trivial
          · show (field.toNat : Int) - 1075 + 1 ≤ 971
            rw [hzero]
            decide
      · show (field.toNat : Int) - 1075 ≤ 971
        omega

/-- Two mantissas brought to one exponent, of which one belongs to a small number. -/
theorem belowTop_add {m m' : Nat} {e e' : Int} (hm : m < 2 ^ 53) (hm' : m' < 2 ^ 53)
    (he : e ≤ 971) (he' : e' ≤ 757) (s s' : Sign) :
    BelowTop (s.apply (m <<< (e - min e e').toNat : Nat) +
      s'.apply (m' <<< (e' - min e e').toNat : Nat)).natAbs (min e e') := by
  refine ⟨(970 - min e e').toNat, by omega, ?_⟩
  generalize hn : (970 - min e e').toNat = n
  have hlarge : m <<< (e - min e e').toNat ≤ (2 ^ 53 - 1) * 2 ^ (n + 1) := by
    rw [Nat.shiftLeft_eq]
    exact Nat.mul_le_mul (Nat.le_pred_of_lt hm) (Nat.pow_le_pow_right (by decide) (by omega))
  have hsmall : m' <<< (e' - min e e').toNat < 2 ^ n := by
    rw [Nat.shiftLeft_eq]
    calc m' * 2 ^ (e' - min e e').toNat
        < 2 ^ 53 * 2 ^ (e' - min e e').toNat := Nat.mul_lt_mul_of_pos_right hm' (Nat.two_pow_pos _)
      _ = 2 ^ (53 + (e' - min e e').toNat) := (Nat.pow_add _ _ _).symm
      _ ≤ 2 ^ n := Nat.pow_le_pow_right (by decide) (by omega)
  have habs (s : Sign) (k : Nat) : (s.apply (k : Int)).natAbs = k := by
    cases s
    · exact Int.natAbs_neg _
    · rfl
  have hsum := Int.natAbs_add_le (s.apply (m <<< (e - min e e').toNat : Nat))
    (s'.apply (m' <<< (e' - min e e').toNat : Nat))
  rw [habs, habs] at hsum
  omega

theorem add_exponent {x y : UnpackedFloat} (hx : HasExponentLE 971 x) (hmx : HasMantissaLT x)
    (hy : HasExponentLE 757 y) (hmy : HasMantissaLT y) :
    HasExponentLE 971 (add .binary64 x y) := by
  cases x with
  | infinity s => exact hx.elim
  | notANumber => exact hx.elim
  | zero s =>
      cases y with
      | infinity s' => exact hy.elim
      | notANumber => exact hy.elim
      | zero s' => cases s <;> cases s' <;> trivial
      | finite s' m' e' hm' => exact Int.le_trans (show e' ≤ 757 from hy) (by decide)
  | finite s m e hm =>
      cases y with
      | infinity s' => exact hy.elim
      | notANumber => exact hy.elim
      | zero s' => exact hx
      | finite s' m' e' hm' => exact (belowTop_add hmx hmy hx hy s s').normalize _

/-- A finite number and a small one have a finite sum. -/
theorem isFinite_add {x y : Float} (hx : x.isFinite = true)
    (hy : HasExponentLE 757 y.toModel.unpack) : (x + y).isFinite = true := by
  have hsum := add_exponent (unpack_exponent hx) (unpack_mantissa _) hy (unpack_mantissa _)
  exact (unpack_pack_exponent hsum (by decide) (by decide)).isFinite

theorem HasExponentLE.mono {j k : Int} {x : UnpackedFloat} (h : HasExponentLE j x) (hjk : j ≤ k) :
    HasExponentLE k x := by
  cases x with
  | zero s => trivial
  | finite s m e hm => exact Int.le_trans h hjk
  | infinity s => exact h.elim
  | notANumber => exact h.elim

end Binary64

open Binary64 (HasExponentLE)

/-- The beats of as many bars as a placement can be behind are a small number. -/
theorem Piece.beats_exponent {bar : Nat} (h : bar ≤ 4294967295) :
    HasExponentLE 757 (Scalar.ofNat bar * Piece.beatsPerBar : Float).toModel.unpack := by
  have hbars : (Scalar.ofNat bar : Float) = bar.toUInt64.toFloat := by
    have hwhole : -9007199254740992 ≤ (bar : Int) ∧ (bar : Int) ≤ 9007199254740992 := by omega
    have hnonneg : ¬ (bar : Int) < 0 := by omega
    show (if -9007199254740992 ≤ (bar : Int) ∧ (bar : Int) ≤ 9007199254740992 then
      Binary64.ofWhole bar else Float.ofInt bar) = _
    rw [if_pos hwhole, Binary64.ofWhole, if_neg hnonneg, Int.toNat_natCast]
  have hfour : HasExponentLE (0 : Nat) (Piece.beatsPerBar : Float).toModel.unpack := by
    decide +kernel
  rw [hbars]
  have hproduct := Binary64.mul_exponent (j := 235) (Binary64.toFloat_exponent bar.toUInt64)
    (Binary64.unpack_mantissa _) hfour (Binary64.unpack_mantissa _)
  exact (Binary64.unpack_pack_exponent hproduct (by decide) (by decide)).mono (by decide)

/-- A finite onset stays finite however many bars its clip is moved. -/
theorem Piece.isFinite_onset {x : Float} (hx : x.isFinite = true) {bar : Nat}
    (h : bar ≤ 4294967295) : (x + Scalar.ofNat bar * Piece.beatsPerBar).isFinite = true :=
  Binary64.isFinite_add hx (Piece.beats_exponent h)

end NoteRoll
