import Mathlib
import NoteRoll.Proofs.ExactValues

/-!
# Quotients keep the order

A quotient of binary numbers is the exact one, rounded to the nearest number that can be stored,
and of two that are equally near to the one with the even mantissa. That it never goes past
a stored number is not enough to compare two quotients: both may lie between the same two
neighbours, and then the lesser must not go up where the greater goes down. What decides are the
two bits behind the mantissa. They say whether the rest is nothing, less than half a unit, half of
one or more, and they say it of the exact quotient, since nothing that was shifted out is lost.

So a rounded number is told by the exact one (`Rounded`), and greater numbers are rounded to
numbers that are not less (`Rounded.mono`). Where the exponents differ it is the full
mantissa of the greater number that keeps them apart.
-/

namespace NoteRoll

namespace Binary64

open Float.Model
open Float.Model.UnpackedFloat

/-! ## The bits behind a mantissa -/

/-- A mantissa and the bits behind it say where a number is: at the mantissa, below the middle
to the next one, in the middle or above. -/
def Represents (em : ExtendedMantissa) (v : Rat) : Prop :=
  match em.roundBit, em.stickyBit with
  | false, false => v = em.mantissa
  | false, true => em.mantissa < v ∧ v < em.mantissa + 1 / 2
  | true, false => v = em.mantissa + 1 / 2
  | true, true => em.mantissa + 1 / 2 < v ∧ v < em.mantissa + 1

namespace Represents

variable {em em' : ExtendedMantissa} {v v' : Rat}

theorem bounds (h : Represents em v) : em.mantissa ≤ v ∧ v < em.mantissa + 1 := by
  obtain ⟨m, roundBit, stickyBit⟩ := em
  cases roundBit <;> cases stickyBit <;> simp only [Represents] at h ⊢
  · exact ⟨h.ge, by linarith⟩
  · exact ⟨h.1.le, by linarith⟩
  · exact ⟨by linarith, by linarith⟩
  · exact ⟨by linarith, h.2⟩

theorem mantissa_le (h : Represents em v) (h' : Represents em' v') (hle : v ≤ v') :
    em.mantissa ≤ em'.mantissa := by
  have hlt : (em.mantissa : Rat) < em'.mantissa + 1 :=
    (h.bounds.1.trans hle).trans_lt h'.bounds.2
  exact Nat.lt_succ_iff.1 (by exact_mod_cast hlt)

/-- Of a greater number the nearest whole one is not less. -/
theorem roundedMantissa_le (h : Represents em v) (h' : Represents em' v') (hle : v ≤ v') :
    em.roundedMantissa ≤ em'.roundedMantissa := by
  rcases Nat.lt_or_eq_of_le (h.mantissa_le h' hle) with hlt | heq
  · calc em.roundedMantissa ≤ em.mantissa + 1 := Binary64.roundedMantissa_le em
      _ ≤ em'.mantissa := hlt
      _ ≤ em'.roundedMantissa := le_roundedMantissa em'
  · -- With one mantissa the bits behind it decide, and they are in order.
    obtain ⟨m, roundBit, stickyBit⟩ := em
    obtain ⟨m', roundBit', stickyBit'⟩ := em'
    obtain rfl : m = m' := heq
    cases roundBit <;> cases stickyBit <;> cases roundBit' <;> cases stickyBit' <;>
      simp only [Represents] at h h' <;>
      first
        | exact Nat.le_refl _
        | exact Nat.le_add_right m _
        | exact Nat.add_le_add_left (Nat.le_of_lt_succ (Nat.mod_lt m (by decide))) m
        | exact absurd hle (not_le.2 (by linarith))

theorem shiftRightOne (h : Represents em v) : Represents em.shiftRightOne (v / 2) := by
  obtain ⟨m, roundBit, stickyBit⟩ := em
  have hsplit : (m : Rat) = 2 * (m / 2 : Nat) + (m % 2 : Nat) := by
    exact_mod_cast (Nat.div_add_mod m 2).symm
  rw [ExtendedMantissa.shiftRightOne]
  dsimp only
  rcases Nat.mod_two_eq_zero_or_one m with hbit | hbit <;> rw [hbit] at hsplit ⊢ <;>
    push_cast at hsplit <;> cases roundBit <;> cases stickyBit
  · show v / 2 = (m / 2 : Nat)
    have hv : v = m := h
    linarith
  · exact ⟨by linarith [h.1], by linarith [h.2]⟩
  · have hv : v = m + 1 / 2 := h
    exact ⟨by linarith, by linarith⟩
  · exact ⟨by linarith [h.1], by linarith [h.2]⟩
  · show v / 2 = (m / 2 : Nat) + 1 / 2
    have hv : v = m := h
    linarith
  · exact ⟨by linarith [h.1], by linarith [h.2]⟩
  · have hv : v = m + 1 / 2 := h
    exact ⟨by linarith, by linarith⟩
  · exact ⟨by linarith [h.1], by linarith [h.2]⟩

theorem shiftRight (h : Represents em v) (n : Nat) : Represents (em >>> n) (v / 2 ^ n) := by
  induction n with
  | zero =>
      rw [pow_zero, div_one]
      exact h
  | succ n ih =>
      rw [pow_succ, ← div_div]
      exact ih.shiftRightOne

theorem exact (m : Nat) : Represents (ExtendedMantissa.ofMantissaAndAccuracy m .exact) m := rfl

/-- The rest of a division, as the bits behind the mantissa. -/
theorem quotient (a : Nat) {b : Nat} (hb : 0 < b) :
    Represents (ExtendedMantissa.ofMantissaAndAccuracy (a / b) (accuracyOfFraction (a % b) b))
      ((a : Rat) / b) := by
  have hpos : (0 : Rat) < b := by exact_mod_cast hb
  have hsplit : (a : Rat) / b = (a / b : Nat) + ((a % b : Nat) : Rat) / b := by
    have hall : (a : Rat) = b * (a / b : Nat) + (a % b : Nat) := by
      exact_mod_cast (Nat.div_add_mod a b).symm
    rw [div_eq_iff hpos.ne', add_mul, div_mul_cancel₀ _ hpos.ne', mul_comm]
    exact hall
  have hrest : ((a % b : Nat) : Rat) < b := by exact_mod_cast Nat.mod_lt a hb
  rw [hsplit, accuracyOfFraction]
  generalize (a / b : Nat) = q
  generalize a % b = r at hrest
  split
  · next hnone =>
      rw [hnone, Nat.cast_zero, zero_div, add_zero]
      exact exact q
  · next hsome =>
      have hmore : (0 : Rat) < r / b := div_pos (by exact_mod_cast Nat.pos_of_ne_zero hsome) hpos
      have hless : (r : Rat) / b < 1 := (div_lt_one hpos).2 hrest
      rcases Nat.lt_trichotomy (2 * r) b with hlt | heq | hgt
      · have hhalf : (r : Rat) / b < 1 / 2 := by
          rw [div_lt_div_iff₀ hpos two_pos]
          exact_mod_cast (by omega : r * 2 < 1 * b)
        rw [Nat.compare_eq_lt.2 hlt]
        show (q : Rat) < q + r / b ∧ (q : Rat) + r / b < q + 1 / 2
        exact ⟨by linarith, by linarith⟩
      · have hhalf : (r : Rat) / b = 1 / 2 := by
          rw [div_eq_div_iff hpos.ne' two_ne_zero]
          exact_mod_cast (by omega : r * 2 = 1 * b)
        rw [Nat.compare_eq_eq.2 heq, hhalf]
        rfl
      · have hhalf : 1 / 2 < (r : Rat) / b := by
          rw [div_lt_div_iff₀ two_pos hpos]
          exact_mod_cast (by omega : 1 * b < r * 2)
        rw [Nat.compare_eq_gt.2 hgt]
        show (q : Rat) + 1 / 2 < q + r / b ∧ (q : Rat) + r / b < q + 1
        exact ⟨by linarith, by linarith⟩

end Represents

/-! ## Rounded numbers -/

/-- The exponent in whose units a number fills the bits of a mantissa, or the least one. -/
structure UnitAt (v : Rat) (t : Int) : Prop where
  low : -1074 ≤ t
  below : v < 2 ^ (t + 53)
  full : t = -1074 ∨ 2 ^ (t + 52) ≤ v

theorem UnitAt.le {v v' : Rat} {t t' : Int} (h : UnitAt v t) (h' : UnitAt v' t') (hle : v ≤ v') :
    t ≤ t' := by
  rcases h.full with hleast | hfull
  · exact hleast.trans_le h'.low
  · have hpow : (2 : Rat) ^ (t + 52) < 2 ^ (t' + 53) := (hfull.trans hle).trans_lt h'.below
    have hexp := (zpow_lt_zpow_iff_right₀ one_lt_two).1 hpow
    omega

/-- A mantissa and exponent are those of a number that was rounded. -/
structure Rounded (v : Rat) (m : Nat) (e : Int) : Prop where
  exists_bits : ∃ em t, UnitAt v t ∧ Represents em (v / 2 ^ t) ∧
    m = (carry em.roundedMantissa t).1 ∧ e = (carry em.roundedMantissa t).2

theorem div_two_zpow_lt {v : Rat} {t : Int} {n : Nat} :
    v / 2 ^ t < (2 ^ n : Nat) ↔ v < 2 ^ (t + n) := by
  rw [div_lt_iff₀ (zpow_pos two_pos t), zpow_add₀ two_ne_zero, zpow_natCast, mul_comm]
  push_cast
  rfl

section Rounded

variable {v v' : Rat} {t t' : Int} {em em' : ExtendedMantissa} {m m' : Nat} {e e' : Int}

theorem UnitAt.mantissa_lt (h : UnitAt v t) (hem : Represents em (v / 2 ^ t)) :
    em.mantissa < 2 ^ 53 := by
  have hlt := hem.bounds.1.trans_lt (div_two_zpow_lt.2 h.below)
  exact_mod_cast hlt

theorem UnitAt.le_mantissa (h : UnitAt v t) (hem : Represents em (v / 2 ^ t))
    (ht : t ≠ -1074) : 2 ^ 52 ≤ em.mantissa := by
  have hfull : (2 ^ 52 : Nat) ≤ v / 2 ^ t :=
    not_lt.1 fun hlt => (h.full.resolve_left ht).not_gt (div_two_zpow_lt.1 hlt)
  have hlt := hfull.trans_lt hem.bounds.2
  exact Nat.lt_succ_iff.1 (by exact_mod_cast hlt)

theorem Rounded.canonical (h : Rounded v m e) : Canonical m e := by
  obtain ⟨em, t, hunit, hem, rfl, rfl⟩ := h
  have hlow := hunit.low
  have hwidth := (Binary64.roundedMantissa_le em).trans (hunit.mantissa_lt hem)
  have hfull : t ≠ -1074 → 2 ^ 52 ≤ em.roundedMantissa :=
    fun ht => (hunit.le_mantissa hem ht).trans (le_roundedMantissa em)
  rw [carry]
  split
  · next hnarrow => exact ⟨hnarrow, hlow, by omega⟩
  · next hwide => exact ⟨by omega, by omega, by omega⟩

/-- Greater numbers are not rounded to lesser ones. -/
theorem Rounded.mono (h : Rounded v m e) (h' : Rounded v' m' e') (hle : v ≤ v') :
    e < e' ∨ e = e' ∧ m ≤ m' := by
  have hcanonical := h'.canonical
  obtain ⟨em, t, hunit, hem, rfl, rfl⟩ := h
  obtain ⟨em', t', hunit', hem', rfl, rfl⟩ := h'
  have hwidth := (Binary64.roundedMantissa_le em).trans (hunit.mantissa_lt hem)
  rcases (hunit.le hunit' hle).lt_or_eq with hlt | rfl
  · -- The mantissa of the greater number is full, and one that is carried is the least full one.
    have hlow := hunit.low
    have hfull := (hunit'.le_mantissa hem' (by omega)).trans (le_roundedMantissa em')
    rw [carry, carry]
    split <;> split <;> omega
  · have hscaled : v / 2 ^ t ≤ v' / 2 ^ t := div_le_div_of_nonneg_right hle (zpow_pos two_pos t).le
    have hrounded := hem.roundedMantissa_le hem' hscaled
    rw [carry, carry]
    split <;> split <;> omega

end Rounded

/-! ## Quotients are rounded -/

theorem mantissa_ofMantissaAndAccuracy (q : Nat) (a : Accuracy) :
    (ExtendedMantissa.ofMantissaAndAccuracy q a).mantissa = q := by
  cases a with
  | exact => rfl
  | inexact o => cases o <;> rfl

theorem unitAt_wanted {q : Nat} {E : Int} {v : Rat} (hlow : q ≤ v / 2 ^ E)
    (hhigh : v / 2 ^ E < q + 1) (hE : E ≤ wanted q E) : UnitAt v (wanted q E) := by
  have hw := wanted_eq q E
  constructor
  · omega
  · have hwidth : v / 2 ^ E < (2 ^ (q.log2 + 1) : Nat) :=
      hhigh.trans_le (by exact_mod_cast (Nat.lt_log2_self : q < 2 ^ (q.log2 + 1)))
    exact (div_two_zpow_lt.1 hwidth).trans_le (zpow_le_zpow_right₀ one_le_two (by omega))
  · by_cases hleast : wanted q E = -1074
    · exact .inl hleast
    · have hq : q ≠ 0 := by
        rintro rfl
        rw [Nat.log2_zero] at hw
        omega
      have hexp : wanted q E + 52 = E + q.log2 := by omega
      rw [hexp]
      refine .inr (not_lt.1 fun hlt => ?_)
      have hless := hlow.trans_lt (div_two_zpow_lt.2 hlt)
      exact (Nat.log2_self_le hq).not_gt (by exact_mod_cast hless)

/-- What has no fewer bits than the format wants is rounded to the format, if what is behind
them is known. -/
theorem roundWithAccuracy_rounded {q : Nat} {E : Int} {a : Accuracy} {v : Rat}
    (hq : Represents (ExtendedMantissa.ofMantissaAndAccuracy q a) (v / 2 ^ E))
    (hE : E ≤ wanted q E) (s : Sign) :
    ∃ m e, Rounded v m e ∧ roundWithAccuracy .binary64 s q E a = settle s m e := by
  have hbounds := hq.bounds
  rw [mantissa_ofMantissaAndAccuracy] at hbounds
  have hunit := unitAt_wanted hbounds.1 hbounds.2 hE
  have hem := hq.shiftRight (wanted q E - E).toNat
  have hexp : E + (wanted q E - E).toNat = wanted q E := by omega
  rw [div_div, ← zpow_natCast, ← zpow_add₀ two_ne_zero, hexp] at hem
  have hfirst : shiftToTargetExponent .binary64 q E a =
      (ExtendedMantissa.ofMantissaAndAccuracy q a >>> (wanted q E - E).toNat,
        E + (wanted q E - E).toNat) := rfl
  rw [hexp] at hfirst
  generalize ExtendedMantissa.ofMantissaAndAccuracy q a >>> (wanted q E - E).toNat = em
    at hem hfirst
  have hwidth := (Binary64.roundedMantissa_le em).trans (hunit.mantissa_lt hem)
  obtain ⟨hmantissa, hexponent⟩ := shiftToTargetExponent_eq hwidth hunit.low
  refine ⟨_, _, ⟨em, wanted q E, hunit, hem, rfl, rfl⟩, ?_⟩
  rw [roundWithAccuracy, hfirst, ← hmantissa, ← hexponent]
  rfl

/-- A quotient has no fewer bits than the format wants. -/
theorem divCore_le_wanted {m m' : Nat} (hm : 0 < m) (hm' : 0 < m') (e e' : Int) :
    (divCore .binary64 m e m' e').2.1 ≤
      wanted (divCore .binary64 m e m' e').1 (divCore .binary64 m e m' e').2.1 := by
  have hbits : Format.binary64.mantissaBits = 53 := rfl
  have hleast : Format.binary64.minExponent = -1074 := rfl
  rw [divCore]
  dsimp only
  generalize ht : min (e - e') (Format.binary64.targetExponent
    (totalExponent m e - totalExponent m' e')) = t
  rw [Format.targetExponent, totalExponent, totalExponent, hbits, hleast] at ht
  rw [wanted_eq]
  by_cases hlow : t ≤ -1074
  · omega
  · -- Above the least exponent the dividend was shifted until the quotient fills a mantissa.
    generalize hk : (e - e' - t).toNat = k
    have hquot : 2 ^ 52 ≤ m <<< k / m' := by
      rw [Nat.le_div_iff_mul_le hm', Nat.shiftLeft_eq]
      calc 2 ^ 52 * m' ≤ 2 ^ 52 * 2 ^ (m'.log2 + 1) :=
            Nat.mul_le_mul_left _ Nat.lt_log2_self.le
        _ = 2 ^ (52 + (m'.log2 + 1)) := (Nat.pow_add ..).symm
        _ ≤ 2 ^ (m.log2 + k) := Nat.pow_le_pow_right (by decide) (by omega)
        _ = 2 ^ m.log2 * 2 ^ k := Nat.pow_add ..
        _ ≤ m * 2 ^ k := Nat.mul_le_mul_right _ (Nat.log2_self_le hm.ne')
    have hlog : 52 ≤ (m <<< k / m').log2 := by
      rw [Nat.le_log2 (by omega)]
      exact hquot
    omega

theorem div_rounded (s s' : Sign) {m m' : Nat} (e e' : Int) (hm : 0 < m) (hm' : 0 < m') :
    ∃ r f, Rounded (magnitude m e / magnitude m' e') r f ∧
      div .binary64 (.finite s m e hm) (.finite s' m' e' hm') = settle (s / s') r f := by
  generalize ht : min (e - e') (Format.binary64.targetExponent
    (totalExponent m e - totalExponent m' e')) = t
  have hcore : divCore .binary64 m e m' e' =
      (m <<< (e - e' - t).toNat / m', t,
        accuracyOfFraction (m <<< (e - e' - t).toNat % m') m') := by
    rw [← ht]
    rfl
  have hE := divCore_le_wanted hm hm' e e'
  have hdiv : div .binary64 (.finite s m e hm) (.finite s' m' e' hm') =
      roundWithAccuracy .binary64 (s / s') (divCore .binary64 m e m' e').1
        (divCore .binary64 m e m' e').2.1 (divCore .binary64 m e m' e').2.2 := rfl
  rw [hdiv]
  rw [hcore] at hE ⊢
  refine roundWithAccuracy_rounded ?_ hE _
  have hexp : e - (e - e' - t).toNat = e' + t := by omega
  have hvalue : magnitude m e / magnitude m' e' / 2 ^ t =
      (m <<< (e - e' - t).toNat : Nat) / (m' : Rat) := by
    rw [← magnitude_shiftLeft m (e - e' - t).toNat e, hexp, magnitude, magnitude,
      zpow_add₀ two_ne_zero]
    have hpos : (0 : Rat) < m' := by exact_mod_cast hm'
    field_simp
  rw [hvalue]
  exact Represents.quotient _ hm'

/-! ## The nearest value -/

/-- A value is the nearest one to a number that can be stored. -/
def Nearest (v z : Rat) : Prop :=
  ∃ s a m e, 0 ≤ a ∧ v = signed s a ∧ Rounded a m e ∧ z = signed s (min (magnitude m e) top)

theorem rounded_zero : Rounded 0 0 (-1074) := by
  have hunit : UnitAt 0 (-1074) := ⟨le_refl _, zpow_pos two_pos _, .inl rfl⟩
  refine ⟨ExtendedMantissa.ofMantissaAndAccuracy 0 .exact, -1074, hunit, ?_, rfl, rfl⟩
  rw [zero_div]
  exact Represents.exact 0

theorem nearest_zero : Nearest 0 0 := by
  refine ⟨.positive, 0, 0, -1074, le_refl 0, rfl, rounded_zero, ?_⟩
  rw [magnitude_zero, min_eq_left top_pos.le]
  rfl

theorem Rounded.le {v v' : Rat} {m m' : Nat} {e e' : Int} (h : Rounded v m e)
    (h' : Rounded v' m' e') (hle : v ≤ v') :
    min (magnitude m e) top ≤ min (magnitude m' e') top :=
  min_le_min_right top (magnitude_le h.canonical h'.canonical (h.mono h' hle))

theorem storable_nonneg (m : Nat) (e : Int) : 0 ≤ min (magnitude m e) top :=
  le_min (magnitude_nonneg m e) top_pos.le

theorem Nearest.le {v v' z z' : Rat} (h : Nearest v z) (h' : Nearest v' z') (hle : v ≤ v') :
    z ≤ z' := by
  obtain ⟨s, a, m, e, ha, rfl, hrounded, rfl⟩ := h
  obtain ⟨s', a', m', e', ha', rfl, hrounded', rfl⟩ := h'
  have hnonneg := storable_nonneg m e
  have hnonneg' := storable_nonneg m' e'
  cases s <;> cases s' <;> simp only [signed] at hle ⊢
  · exact neg_le_neg (hrounded'.le hrounded (neg_le_neg_iff.1 hle))
  · linarith
  · -- Both are zero.
    have hzero := hrounded.le rounded_zero (by linarith)
    have hzero' := hrounded'.le rounded_zero (by linarith)
    rw [magnitude_zero, min_eq_left top_pos.le] at hzero hzero'
    linarith
  · exact hrounded.le hrounded' hle

/-! ## Division by a positive number -/

theorem div_infinity (s : Sign) {m : Nat} {e : Int} (hm : 0 < m) :
    div .binary64 (.infinity s) (.finite .positive m e hm) = .infinity s := by
  cases s <;> rfl

theorem div_zero (s : Sign) {m : Nat} {e : Int} (hm : 0 < m) :
    div .binary64 (.zero s) (.finite .positive m e hm) = .zero s := by
  cases s <;> rfl

theorem signed_div (s : Sign) (a b : Rat) : signed s a / b = signed s (a / b) := by
  cases s
  · exact neg_div ..
  · rfl

theorem sign_div_positive (s : Sign) : s / .positive = s := by
  cases s <;> rfl

/-- A quotient is the nearest value to the exact one, but infinite if the dividend is. -/
theorem value_div {x c : Float.Model} {v : Rat} {m : Nat} {e : Int} {hm : 0 < m}
    (hv : v ∈ value x.unpack) (hc : c.unpack = .finite .positive m e hm) :
    ∃ z ∈ value (x.div c).unpack, (v = top → z = top) ∧ (v = -top → z = -top) ∧
      (-top < v → v < top → Nearest (v / magnitude m e) z) := by
  have htop := top_pos
  rw [Float.Model.div, hc]
  rcases unpack_cases x with hx | ⟨s, hx⟩ | ⟨s, hx⟩ | ⟨s, m', e', hm', hx, hcanonical, he⟩ <;>
    rw [hx] at hv ⊢
  · cases hv
  · obtain rfl := Option.some.inj hv
    rw [div_infinity, unpack_pack_infinity]
    refine ⟨signed s top, rfl, id, id, fun hlow hhigh => ?_⟩
    cases s
    · exact absurd hlow (lt_irrefl _)
    · exact absurd hhigh (lt_irrefl _)
  · obtain rfl := Option.some.inj hv
    rw [div_zero, unpack_pack_zero, zero_div]
    exact ⟨0, rfl, fun h => absurd h htop.ne, fun h => by linarith, fun _ _ => nearest_zero⟩
  · obtain rfl := Option.some.inj hv
    have hpos := magnitude_pos hm' e'
    have hlt := magnitude_lt_top hcanonical he
    obtain ⟨r, f, hrounded, hdiv⟩ :=
      div_rounded s .positive e' e hm' hm
    rw [hdiv, sign_div_positive, value_pack_settle hrounded.canonical, signed_div]
    refine ⟨_, rfl, fun h => ?_, fun h => ?_, fun _ _ => ?_⟩
    · cases s <;> simp only [signed] at h <;> linarith
    · cases s <;> simp only [signed] at h <;> linarith
    · exact ⟨s, _, r, f, (div_pos hpos (magnitude_pos hm e)).le, rfl, hrounded, rfl⟩

theorem value_div_infinity {x c : Float.Model} {s : Sign} (hc : c.unpack = .infinity s) :
    ∀ z ∈ value (x.div c).unpack, z = 0 := by
  have hmissing : ∀ z ∈ value (Float.Model.pack .notANumber).unpack, z = 0 :=
    fun z hz => by cases show z ∈ none from hz
  have hzero (s' : Sign) : ∀ z ∈ value (Float.Model.pack (.zero s')).unpack, z = 0 := by
    rw [unpack_pack_zero]
    exact fun z hz => (Option.some.inj hz).symm
  rw [Float.Model.div, hc]
  rcases x.unpack with s' | _ | s' | ⟨s', m, e, hm⟩
  · exact hmissing
  · exact hmissing
  · exact hzero _
  · exact hzero _

theorem unpack_positive {c : Float} (hc : (0.0 : Float) < c) :
    (∃ s, c.toModel.unpack = .infinity s) ∨
      ∃ m e hm, c.toModel.unpack = .finite .positive m e hm := by
  obtain ⟨o, ho, u, hu, hou⟩ := lt_iff_value.1 hc
  rw [unpack_zero] at ho
  obtain rfl := Option.some.inj ho
  rcases unpack_cases c.toModel with hc | ⟨s, hc⟩ | ⟨s, hc⟩ | ⟨s, m, e, hm, hc, -, -⟩ <;>
    rw [hc] at hu
  · cases hu
  · exact .inl ⟨s, hc⟩
  · obtain rfl := Option.some.inj hu
    exact absurd hou (lt_irrefl 0)
  · cases s with
    | positive => exact .inr ⟨m, e, hm, hc⟩
    | negative =>
        obtain rfl := Option.some.inj hu
        exact absurd hou (not_lt.2 (neg_nonpos.2 (magnitude_nonneg m e)))

theorem unpack_finite {x : Float} (hx : x.isFinite = true) :
    (∃ s, x.toModel.unpack = .zero s) ∨ ∃ s m e hm, x.toModel.unpack = .finite s m e hm := by
  have hx : x.toModel.unpack.isFinite = true := hx
  rcases hu : x.toModel.unpack with s | _ | s | ⟨s, m, e, hm⟩ <;> rw [hu] at hx
  · cases hx
  · cases hx
  · exact .inl ⟨s, rfl⟩
  · exact .inr ⟨s, m, e, hm, rfl⟩

theorem value_of_isFinite {x : Float} (hx : x.isFinite = true) :
    ∃ v, v ∈ value x.toModel.unpack := by
  rcases unpack_finite hx with ⟨s, hx⟩ | ⟨s, m, e, hm, hx⟩ <;> rw [hx] <;> exact ⟨_, rfl⟩

/-- A finite number has a quotient by every positive one, be it infinite. -/
theorem number_div {x c : Float} (hx : x.isFinite = true) (hc : (0.0 : Float) < c) :
    (x / c == x / c) = true := by
  rw [beq_self_iff_value]
  rcases unpack_positive hc with ⟨s, hc⟩ | ⟨m, e, hm, hc⟩
  · have hzero (s' : Sign) : ∃ v, v ∈ value (Float.Model.pack (.zero s')).unpack :=
      ⟨0, by rw [unpack_pack_zero]; rfl⟩
    show ∃ v, v ∈ value (x.toModel.div c.toModel).unpack
    rw [Float.Model.div, hc]
    rcases unpack_finite hx with ⟨s', hx⟩ | ⟨s', m, e, hm, hx⟩ <;> rw [hx]
    · exact hzero _
    · exact hzero _
  · obtain ⟨v, hv⟩ := value_of_isFinite hx
    obtain ⟨z, hz, -⟩ := value_div hv hc
    exact ⟨z, hz⟩

/-- Quotients by a positive number are in the order of the dividends. -/
theorem div_le_div {x y c : Float} (hc : (0.0 : Float) < c) (hxy : x ≤ y)
    (hx : (x / c == x / c) = true) (hy : (y / c == y / c) = true) : x / c ≤ y / c := by
  obtain ⟨v, hv, w, hw, hvw⟩ := le_iff_value.1 hxy
  rcases unpack_positive hc with ⟨s, hc⟩ | ⟨m, e, hm, hc⟩
  · obtain ⟨z, hz⟩ := beq_self_iff_value.1 hx
    obtain ⟨z', hz'⟩ := beq_self_iff_value.1 hy
    refine le_iff_value.2 ⟨z, hz, z', hz', ?_⟩
    rw [value_div_infinity hc z hz, value_div_infinity hc z' hz']
  · obtain ⟨z, hz, hztop, hzlow, hznear⟩ := value_div hv hc
    obtain ⟨z', hz', hztop', hzlow', hznear'⟩ := value_div hw hc
    refine le_iff_value.2 ⟨z, hz, z', hz', ?_⟩
    have hbounds := value_bounds hz
    have hbounds' := value_bounds hz'
    by_cases hlow : v = -top
    · exact (hzlow hlow).le.trans hbounds'.1
    by_cases hhigh : w = top
    · exact hbounds.2.trans (hztop' hhigh).ge
    have hvlow := lt_of_le_of_ne (value_bounds hv).1 (Ne.symm hlow)
    have hwhigh := lt_of_le_of_ne (value_bounds hw).2 hhigh
    refine (hznear hvlow (hvw.trans_lt hwhigh)).le (hznear' (hvlow.trans_le hvw) hwhigh) ?_
    exact div_le_div_of_nonneg_right hvw (magnitude_pos hm e).le

end Binary64

end NoteRoll
