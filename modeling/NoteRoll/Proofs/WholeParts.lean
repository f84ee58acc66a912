import Mathlib
import NoteRoll.Proofs.Quotients

/-!
# Whole parts

A binary number becomes a whole number in two steps: it is rounded down, to a binary number
again, and cut to so many bits. Both go through a cast to 64 bits and back, so what has to be
known is that nothing is lost on the way. What is cut off is `whole_eq`; that a whole number of up
to 53 bits comes back as it is, that one can be taken from it, and that from `2 ^ 52` on there are
only whole numbers, are the three facts that make rounding down exact (`value_floor`).

Below zero the cast goes the wrong way, up to the next whole number, and one is taken off
again, unless the number was whole. The difference is computed by the general subtraction,
which aligns, rounds and packs; it is exact because its result has no more bits than a mantissa
(`value_sub_finite`).

What comes out is `truncate_floor`: a pixel rounded down and cut is the floor of its value, kept
between the bounds. An infinite one stands where the finite ones end, which is beyond all bounds.
-/

namespace NoteRoll

namespace Binary64

open Float.Model
open Float.Model.UnpackedFloat

/-! ## Cutting to 64 bits -/

theorem floor_magnitude (m : Nat) (e : Int) :
    ⌊magnitude m e⌋ = (m <<< e.toNat / 2 ^ (-e).toNat : Nat) := by
  have hvalue : magnitude m e = (m <<< e.toNat : Nat) / (2 ^ (-e).toNat : Nat) := by
    have hexp : e = (e.toNat : Int) - (-e).toNat := by omega
    conv_lhs => rw [magnitude, hexp, zpow_sub₀ two_ne_zero, zpow_natCast, zpow_natCast]
    rw [Nat.shiftLeft_eq]
    push_cast
    exact (mul_div_assoc ..).symm
  rw [hvalue]
  exact Rat.floor_natCast_div_natCast _ _

theorem roundToInt_eq (s : Sign) (m : Nat) (e : Int) :
    roundToInt s m e = s.apply ⌊magnitude m e⌋ := by
  have hround : roundToInt s m e = s.apply
      ((ExtendedMantissa.ofMantissaAndAccuracy (m <<< (e - 0).toNat) .exact >>>
        (0 - (e - (e - 0).toNat)).toNat).mantissa : Nat) := rfl
  have hup : (e - 0).toNat = e.toNat := by omega
  have hdown : (0 - (e - e.toNat)).toNat = (-e).toNat := by omega
  rw [hround, shiftRight_mantissa, hup, hdown, floor_magnitude]
  rfl

theorem toNat_ofNatClamp (n : Nat) : (UInt64.ofNatClamp n).toNat = min n 18446744073709551615 := by
  rw [UInt64.ofNatClamp]
  split
  · next h => exact (min_eq_left (Nat.le_of_lt_succ h)).symm
  · next h => exact (min_eq_right (Nat.le_of_lt (Nat.le_of_not_lt h))).symm

theorem wide_le_top {n : Int} (h : n ≤ 2 ^ 64) : n ≤ ⌊top⌋ := by
  have hpow : (2 : Rat) ^ (64 : Int) ≤ top := by
    rw [top_eq]
    exact zpow_le_zpow_right₀ one_le_two (by decide)
  refine Int.le_floor.2 (le_trans ?_ hpow)
  exact_mod_cast h

/-- What is not negative is cut off after the point, and at the greatest number of 64 bits. -/
theorem toNat_toUInt64 {u : UnpackedFloat} {v : Rat} (hv : v ∈ value u) (h : 0 ≤ v) :
    (u.toUInt64.toNat : Int) = min ⌊v⌋ 18446744073709551615 := by
  have htop := top_pos
  rcases u with s | _ | s | ⟨s, m, e, hm⟩
  · obtain rfl := Option.some.inj hv
    cases s
    · exact absurd h (not_le.2 (neg_lt_zero.2 htop))
    · exact (min_eq_right (wide_le_top (by decide))).symm
  · cases hv
  · obtain rfl := Option.some.inj hv
    rfl
  · obtain rfl := Option.some.inj hv
    have hpos := magnitude_pos hm e
    cases s
    · exact absurd h (not_le.2 (neg_lt_zero.2 hpos))
    · show ((UInt64.ofNatClamp (roundToInt .positive m e).toNat).toNat : Int) =
        min ⌊magnitude m e⌋ _
      have hnonneg : 0 ≤ ⌊magnitude m e⌋ := Int.floor_nonneg.2 hpos.le
      rw [toNat_ofNatClamp, roundToInt_eq, Sign.apply]
      omega

theorem value_neg {x : Float.Model} {v : Rat} (hv : v ∈ value x.unpack) :
    -v ∈ value x.neg.unpack := by
  have hsigned (s : Sign) (a : Rat) : -signed s a = signed (-s) a := by
    cases s
    · exact neg_neg a
    · rfl
  rw [Float.Model.neg]
  rcases unpack_cases x with hx | ⟨s, hx⟩ | ⟨s, hx⟩ | ⟨s, m, e, hm, hx, hcanonical, he⟩ <;>
    rw [hx] at hv ⊢
  · cases hv
  · obtain rfl := Option.some.inj hv
    rw [UnpackedFloat.neg, unpack_pack_infinity, hsigned]
    rfl
  · obtain rfl := Option.some.inj hv
    rw [UnpackedFloat.neg, unpack_pack_zero, neg_zero]
    rfl
  · obtain rfl := Option.some.inj hv
    rw [UnpackedFloat.neg, hcanonical.unpack_pack, if_pos he, hsigned]
    rfl

theorem value_zero : (0 : Rat) ∈ value (0.0 : Float).toModel.unpack := by
  rw [unpack_zero]
  rfl

/-- The whole part, cut to 64 bits and a sign. -/
theorem whole_eq {x : Float} {v : Rat} (hv : v ∈ value x.toModel.unpack) :
    whole x = if v < 0 then -min ⌊-v⌋ 18446744073709551615 else min ⌊v⌋ 18446744073709551615 := by
  have hneg : x < (0.0 : Float) ↔ v < 0 := lt_iff_of_value hv value_zero
  rw [whole]
  split
  · next h =>
      rw [if_pos (hneg.1 h)]
      exact congrArg Neg.neg (toNat_toUInt64 (value_neg hv) (neg_nonneg.2 (hneg.1 h).le))
  · next h =>
      rw [if_neg fun h' => h (hneg.2 h')]
      exact toNat_toUInt64 hv (not_lt.1 fun h' => h (hneg.2 h'))

/-! ## Whole numbers are exact -/

section Represents

variable {em : ExtendedMantissa} {n : Nat}

theorem Represents.mantissa_eq (h : Represents em n) : em.mantissa = n :=
  Nat.le_antisymm (h.mantissa_le (Represents.exact n) (le_refl _))
    ((Represents.exact n).mantissa_le h (le_refl _))

theorem Represents.roundedMantissa_eq (h : Represents em n) : em.roundedMantissa = n :=
  Nat.le_antisymm (h.roundedMantissa_le (Represents.exact n) (le_refl _))
    ((Represents.exact n).roundedMantissa_le h (le_refl _))

end Represents

/-- A whole number that has no more bits than a mantissa stays what it is. -/
theorem Rounded.magnitude_eq {n m : Nat} {e : Int} (hn : n < 2 ^ 53) (h : Rounded n m e) :
    magnitude m e = n := by
  obtain ⟨em, t, hunit, hem, rfl, rfl⟩ := h
  have ht : t ≤ 0 := by
    rcases hunit.full with hleast | hfull
    · omega
    · have hlt : (2 : Rat) ^ (t + 52) < 2 ^ (53 : Int) :=
        hfull.trans_lt (by exact_mod_cast hn)
      have hexp := (zpow_lt_zpow_iff_right₀ one_lt_two).1 hlt
      omega
  have hunits : (n : Rat) / 2 ^ t = (n * 2 ^ (-t).toNat : Nat) := by
    have hexp : t = -((-t).toNat : Int) := by omega
    conv_lhs => rw [hexp, zpow_neg, zpow_natCast, div_inv_eq_mul]
    push_cast
    rfl
  have hlt := hunit.mantissa_lt hem
  rw [hunits] at hem
  rw [hem.mantissa_eq] at hlt
  rw [carry, hem.roundedMantissa_eq, if_pos hlt, magnitude, ← hunits]
  exact div_mul_cancel₀ _ (zpow_pos two_pos t).ne'

theorem signed_natAbs {s : Sign} {n : Int} {a : Rat} (ha : 0 ≤ a) (h : (n : Rat) = signed s a) :
    a = n.natAbs := by
  rw [Nat.cast_natAbs, Int.cast_abs, h]
  cases s
  · exact (abs_of_nonpos (neg_nonpos.2 ha)).trans (neg_neg a) |>.symm
  · exact (abs_of_nonneg ha).symm

theorem lt_top_of_lt {n : Nat} (hn : n < 2 ^ 53) : (n : Rat) < top := by
  have hpow : (2 : Rat) ^ (53 : Int) ≤ top := by
    rw [top_eq]
    exact zpow_le_zpow_right₀ one_le_two (by decide)
  refine lt_of_lt_of_le ?_ hpow
  exact_mod_cast hn

theorem Nearest.eq_intCast {n : Int} {z : Rat} (hn : n.natAbs < 2 ^ 53) (h : Nearest n z) :
    z = n := by
  obtain ⟨s, a, m, e, ha, hsigned, hrounded, rfl⟩ := h
  have hvalue := signed_natAbs ha hsigned
  rw [hvalue] at hrounded
  rw [hrounded.magnitude_eq hn, min_eq_left (lt_top_of_lt hn).le, ← hvalue, ← hsigned]

/-- A number is rounded to the nearest value. -/
theorem round_rounded (s : Sign) {M : Nat} (hM : M ≠ 0) (E : Int) :
    ∃ m e, Rounded (magnitude M E) m e ∧ UnpackedFloat.round .binary64 s M E = settle s m e := by
  have hround : UnpackedFloat.round .binary64 s M E = roundWithAccuracy .binary64 s
      (M <<< (E - wanted M E).toNat) (E - (E - wanted M E).toNat) .exact := rfl
  generalize hd : (E - wanted M E).toNat = d at hround
  have hwanted : E - d ≤ wanted (M <<< d) (E - d) := by
    have hw := wanted_eq M E
    rw [wanted_eq, log2_shiftLeft hM]
    omega
  rw [hround]
  refine roundWithAccuracy_rounded ?_ hwanted s
  rw [← magnitude_shiftLeft M d E, magnitude, mul_div_cancel_right₀ _ (zpow_pos two_pos _).ne']
  exact Represents.exact _

theorem value_normalize (n : Int) (E : Int) (s : Sign) :
    ∃ z ∈ value (Float.Model.pack (UnpackedFloat.normalize .binary64 n E s)).unpack,
      Nearest (n * 2 ^ E) z := by
  have hstored (s : Sign) {M : Nat} (hM : M ≠ 0)
      (hn : (n : Rat) * 2 ^ E = signed s (magnitude M E)) :
      ∃ z ∈ value (Float.Model.pack (UnpackedFloat.round .binary64 s M E)).unpack,
        Nearest (n * 2 ^ E) z := by
    obtain ⟨m, e, hrounded, hround⟩ := round_rounded s hM E
    rw [hround, value_pack_settle hrounded.canonical]
    exact ⟨_, rfl, s, _, m, e, magnitude_nonneg M E, hn, hrounded, rfl⟩
  rw [UnpackedFloat.normalize]
  split
  · next hneg =>
      rw [compare_lt_iff_lt] at hneg
      refine hstored .negative (by omega) ?_
      have hcast : (((-n).toNat : Nat) : Rat) = -n := by
        exact_mod_cast (by omega : (((-n).toNat : Nat) : Int) = -n)
      rw [magnitude, hcast, signed, neg_mul, neg_neg]
  · next hzero =>
      rw [compare_eq_iff_eq] at hzero
      rw [hzero, Int.cast_zero, zero_mul, unpack_pack_zero]
      exact ⟨0, rfl, nearest_zero⟩
  · next hpos =>
      rw [compare_gt_iff_gt] at hpos
      refine hstored .positive (by omega) ?_
      have hcast : ((n.toNat : Nat) : Rat) = n := by
        exact_mod_cast (by omega : ((n.toNat : Nat) : Int) = n)
      rw [magnitude, hcast, signed]

theorem value_toFloat {n : Nat} (hn : n < 2 ^ 53) :
    (n : Rat) ∈ value n.toUInt64.toFloat.toModel.unpack := by
  obtain ⟨z, hz, hnear⟩ := value_normalize n 0 .positive
  rw [zpow_zero, mul_one] at hnear
  have hsame : n.toUInt64.toNat = n := by
    rw [Nat.toUInt64_eq, UInt64.toNat_ofNat']
    omega
  have hmodel : n.toUInt64.toFloat.toModel =
      Float.Model.pack (UnpackedFloat.normalize .binary64 n.toUInt64.toNat 0 .positive) := rfl
  rw [hmodel, hsame]
  have hexact := hnear.eq_intCast (by rwa [Int.natAbs_natCast])
  rw [hexact, Int.cast_natCast] at hz
  exact hz

theorem value_ofWhole {n : Int} (hn : n.natAbs < 2 ^ 53) :
    (n : Rat) ∈ value (ofWhole n).toModel.unpack := by
  rw [ofWhole]
  split
  · next hneg =>
      have hcast : (n : Rat) = -(((-n).toNat : Nat) : Rat) := by
        exact_mod_cast (by omega : n = -(((-n).toNat : Nat) : Int))
      rw [hcast]
      exact value_neg (value_toFloat (by omega))
  · next hnonneg =>
      have hcast : (n : Rat) = ((n.toNat : Nat) : Rat) := by
        exact_mod_cast (by omega : n = ((n.toNat : Nat) : Int))
      rw [hcast]
      exact value_toFloat (by omega)

theorem signed_magnitude_shiftLeft (s : Sign) (m : Nat) {e t : Int} (h : t ≤ e) :
    signed s (magnitude m e) = (s.apply ((m <<< (e - t).toNat : Nat) : Int) : Int) * 2 ^ t := by
  have hexp : e - (e - t).toNat = t := by omega
  rw [← magnitude_shiftLeft m (e - t).toNat e, hexp, magnitude]
  cases s
  · rw [signed, Sign.apply, Int.cast_neg, Int.cast_natCast, neg_mul]
  · rw [signed, Sign.apply, Int.cast_natCast]

/-- A difference is the nearest value to the exact one. -/
theorem value_sub_finite {x y : Float.Model} {s s' : Sign} {m m' : Nat} {e e' : Int} {hm : 0 < m}
    {hm' : 0 < m'} (hx : x.unpack = .finite s m e hm) (hy : y.unpack = .finite s' m' e' hm') :
    ∃ z ∈ value (x.sub y).unpack,
      Nearest (signed s (magnitude m e) - signed s' (magnitude m' e')) z := by
  have hsub : x.sub y = Float.Model.pack (UnpackedFloat.normalize .binary64
      (s.apply ((m <<< (e - min e e').toNat : Nat) : Int) -
        s'.apply ((m' <<< (e' - min e e').toNat : Nat) : Int)) (min e e') .positive) := by
    rw [Float.Model.sub, hx, hy]
    rfl
  rw [hsub, signed_magnitude_shiftLeft s m (min_le_left e e'),
    signed_magnitude_shiftLeft s' m' (min_le_right e e'), ← sub_mul, ← Int.cast_sub]
  exact value_normalize _ _ _

theorem unpack_of_value {x : Float.Model} {v : Rat} (hv : v ∈ value x.unpack) (hzero : v ≠ 0)
    (hrange : |v| < top) :
    ∃ s m e hm, x.unpack = .finite s m e hm ∧ v = signed s (magnitude m e) := by
  rcases unpack_cases x with hx | ⟨s, hx⟩ | ⟨s, hx⟩ | ⟨s, m, e, hm, hx, -, -⟩ <;> rw [hx] at hv
  · cases hv
  · obtain rfl := Option.some.inj hv
    have habs : |signed s top| = top := by
      cases s
      · exact (abs_neg top).trans (abs_of_pos top_pos)
      · exact abs_of_pos top_pos
    exact absurd hrange (not_lt.2 habs.ge)
  · obtain rfl := Option.some.inj hv
    exact absurd rfl hzero
  · exact ⟨s, m, e, hm, hx, (Option.some.inj hv).symm⟩

theorem abs_lt_top {n : Int} (hn : n.natAbs < 2 ^ 53) : |(n : Rat)| < top := by
  rw [← Int.cast_abs, ← Nat.cast_natAbs]
  exact lt_top_of_lt hn

theorem value_ofWhole_sub_one {n : Int} (hn : n.natAbs + 1 < 2 ^ 53) :
    ((n - 1 : Int) : Rat) ∈ value (ofWhole n - 1.0).toModel.unpack := by
  by_cases hzero : n = 0
  · have hsub : ofWhole 0 - 1.0 = ofWhole (-1) := by decide +kernel
    rw [hzero, hsub]
    exact value_ofWhole (by decide)
  · have hone : (1.0 : Float) = ofWhole 1 := by decide +kernel
    obtain ⟨s, m, e, hm, hx, hv⟩ := unpack_of_value (value_ofWhole (n := n) (by omega))
      (by exact_mod_cast hzero) (abs_lt_top (by omega))
    obtain ⟨s', m', e', hm', hy, hw⟩ := unpack_of_value (value_ofWhole (n := 1) (by decide))
      (by norm_num) (abs_lt_top (by decide))
    obtain ⟨z, hz, hnear⟩ := value_sub_finite hx hy
    rw [← hv, ← hw, ← Int.cast_sub] at hnear
    rw [hnear.eq_intCast (by omega)] at hz
    rw [hone]
    exact hz

/-! ## Rounding down -/

theorem value_eq_of_beq {x y : Float} {v w : Rat} (hv : v ∈ value x.toModel.unpack)
    (hw : w ∈ value y.toModel.unpack) (h : (x == y) = true) : v = w := by
  obtain ⟨a, ha⟩ := exists_rank hv
  obtain ⟨b, hb⟩ := exists_rank hw
  have hcompare : x.toModel.unpack.compare y.toModel.unpack = some .eq := eq_of_beq h
  rw [compare_eq, ha, hb] at hcompare
  obtain rfl : a = b := compare_eq_iff_eq.1 (Option.some.inj hcompare)
  exact value_eq_of_rank_eq ha hb hv hw

theorem value_withSignOf (x : Float) {y : Float} {v : Rat} (hv : v ∈ value y.toModel.unpack) :
    v ∈ value (withSignOf x y).toModel.unpack := by
  rw [withSignOf]
  split
  · next h =>
      have hzero : v = 0 := value_eq_of_beq hv value_zero (Bool.and_eq_true_iff.1 h).2
      rw [hzero, ← neg_zero]
      exact value_neg value_zero
  · exact hv

theorem value_wholeFrom : ((4503599627370496 : Int) : Rat) ∈ value wholeFrom.toModel.unpack := by
  have hwhole : wholeFrom = ofWhole 4503599627370496 := by decide +kernel
  rw [hwhole]
  exact value_ofWhole (by decide)

theorem not_isSettled_iff {x : Float} {v : Rat} (hv : v ∈ value x.toModel.unpack) :
    ¬ isSettled x = true ↔ -4503599627370496 < v ∧ v < 4503599627370496 := by
  have hhigh := lt_iff_of_value hv value_wholeFrom
  have hlow : -wholeFrom < x ↔ _ := lt_iff_of_value (value_neg value_wholeFrom) hv
  push_cast at hhigh hlow
  rw [isSettled, ← hlow, ← hhigh]
  simp [and_comm]

theorem exists_eq_magnitude (m k : Nat) : ∃ n : Int, magnitude m k = n :=
  ⟨(m * 2 ^ k : Nat), by rw [magnitude, zpow_natCast]; push_cast; rfl⟩

/-- A mantissa that is not less than the bound has no bits behind the point. -/
theorem whole_of_le_magnitude {m : Nat} {e : Int} (h : Canonical m e)
    (hle : 4503599627370496 ≤ magnitude m e) : ∃ n : Int, magnitude m e = n := by
  have he : 0 ≤ e := by
    by_contra hneg
    have hlt : magnitude m e < 2 ^ (52 : Int) := by
      calc magnitude m e < 2 ^ (53 + e) := magnitude_lt_zpow h.width e
        _ ≤ 2 ^ (52 : Int) := zpow_le_zpow_right₀ one_le_two (by omega)
    exact absurd hle (not_le.2 (by norm_num at hlt ⊢; exact hlt))
  obtain ⟨k, rfl⟩ := Int.eq_ofNat_of_zero_le he
  exact exists_eq_magnitude m k

theorem whole_signed {s : Sign} {a : Rat} (h : ∃ n : Int, a = n) : ∃ n : Int, signed s a = n := by
  obtain ⟨n, rfl⟩ := h
  cases s
  · exact ⟨-n, (Int.cast_neg n).symm⟩
  · exact ⟨n, rfl⟩

theorem top_whole : ∃ n : Int, top = n := by
  have htop : top = magnitude 1 (1024 : Nat) := by
    rw [top_eq, magnitude, Nat.cast_one, one_mul]
    rfl
  rw [htop]
  exact exists_eq_magnitude 1 1024

/-- From `wholeFrom` on every number is whole. -/
theorem whole_of_isSettled {x : Float} {v : Rat} (hv : v ∈ value x.toModel.unpack)
    (h : isSettled x = true) : ∃ n : Int, v = n := by
  have hrange := mt (not_isSettled_iff hv).2 (not_not.2 h)
  rcases unpack_cases x.toModel with hx | ⟨s, hx⟩ | ⟨s, hx⟩ | ⟨s, m, e, hm, hx, hcanonical, he⟩ <;>
    rw [hx] at hv
  · cases hv
  · obtain rfl := Option.some.inj hv
    exact whole_signed top_whole
  · obtain rfl := Option.some.inj hv
    exact ⟨0, rfl⟩
  · obtain rfl := Option.some.inj hv
    refine whole_signed (whole_of_le_magnitude hcanonical (not_lt.1 fun hlt => hrange ?_))
    have hpos := magnitude_pos hm e
    cases s <;> simp only [signed] <;> constructor <;> linarith

/-- Below that bound the whole part has no more than 64 bits. -/
theorem whole_eq_truncated {x : Float} {v : Rat} (hv : v ∈ value x.toModel.unpack)
    (hrange : -4503599627370496 < v ∧ v < 4503599627370496) :
    whole x = if v < 0 then ⌈v⌉ else ⌊v⌋ := by
  have hlow : ⌊-v⌋ < 4503599627370496 := Int.floor_lt.2 (by push_cast; linarith)
  have hhigh : ⌊v⌋ < 4503599627370496 := Int.floor_lt.2 (by push_cast; linarith)
  rw [whole_eq hv, ← neg_neg ⌈v⌉, ← Int.floor_neg]
  split <;> omega

/-- Rounding down gives the greatest whole number that is not above the value. -/
theorem value_floor {x : Float} {v : Rat} (hv : v ∈ value x.toModel.unpack) :
    (⌊v⌋ : Rat) ∈ value (floor x).toModel.unpack := by
  rw [floor]
  split
  · next h =>
      obtain ⟨n, rfl⟩ := whole_of_isSettled hv h
      rw [Int.floor_intCast]
      exact hv
  · next h =>
      have hrange := (not_isSettled_iff hv).1 h
      have hwhole := whole_eq_truncated hv hrange
      have hlow : -4503599627370496 ≤ ⌊v⌋ := Int.le_floor.2 (by push_cast; exact hrange.1.le)
      have hhigh : ⌈v⌉ ≤ 4503599627370496 := Int.ceil_le.2 (by push_cast; exact hrange.2.le)
      have hceil := Int.ceil_le_floor_add_one v
      have hfloor := Int.floor_le_ceil v
      generalize whole x = n at hwhole
      have hlt := lt_iff_of_value hv (value_ofWhole (n := n) (by split at hwhole <;> omega))
      apply value_withSignOf
      split
      · next hbelow =>
          -- Cut off after the point, a negative number that is not whole has gone up.
          have hdown : ⌊v⌋ = n - 1 := by
            have hless : ⌊v⌋ < n := Int.floor_lt.2 (hlt.1 hbelow)
            split at hwhole <;> omega
          rw [hdown]
          exact value_ofWhole_sub_one (by omega)
      · next hnot =>
          have hsame : ⌊v⌋ = n := by
            have hle : n ≤ ⌊v⌋ := Int.le_floor.2 (not_lt.1 fun h => hnot (hlt.2 h))
            split at hwhole <;> omega
          rw [hsame]
          exact value_ofWhole (by omega)

/-- A number that is rounded down and cut is its floor, kept between the bounds. -/
theorem truncate_floor {x : Float} {v : Rat} (hv : v ∈ value x.toModel.unpack) {lo hi : Int}
    (hlo : -18446744073709551615 ≤ lo) (hhi : hi ≤ 18446744073709551615) :
    Scalar.truncate lo hi (Scalar.floor x) = max lo (min hi ⌊v⌋) := by
  have hwhole := whole_eq (value_floor hv)
  rw [← Int.cast_neg, Int.floor_intCast, Int.floor_intCast] at hwhole
  simp only [Int.cast_lt_zero] at hwhole
  show max lo (min hi (whole (floor x))) = _
  rw [hwhole]
  split <;> omega

end Binary64

end NoteRoll
