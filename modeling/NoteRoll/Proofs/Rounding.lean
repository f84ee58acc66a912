import Mathlib
import NoteRoll.Proofs.Binary64
import NoteRoll.Proofs.Ordering
import NoteRoll.Proofs.SumsInRange

/-!
# Rounding keeps the order

A sum of binary numbers is the exact one rounded to a number that can be stored. Rounding may move
it, but never past a number that can be stored itself: such a number at the exponent of the result
is a whole number of its units, and rounding goes to one of the two whole numbers next to the exact
value. So nothing is above its sum with a number that is not negative, however much smaller than
half a unit that number may be.

The exact sum is compared with one of the numbers added, at the lesser of the two exponents. There
both are whole, and no fraction is ever written down.
-/

namespace NoteRoll

/-- The laws of sums and products, where numbers are rounded and may be missing. -/
class Scalar.OrderedSums (α : Type) [Scalar α] : Prop extends Scalar.Ordered α where
  le_add : ∀ {x y : α}, ¬ y < 0 → (x + y == x + y) = true → x ≤ x + y
  mul_not_neg : ∀ {x y : α}, ¬ x < 0 → ¬ y < 0 → ¬ x * y < 0
  tenth_not_neg : ¬ (0.1 : α) < 0

namespace Binary64

open Float.Model
open Float.Model.UnpackedFloat

/-! ## Stored numbers -/

/-- The mantissas and exponents that numbers are stored with: the mantissa fills its bits,
unless the exponent is the least. -/
structure Canonical (m : Nat) (e : Int) : Prop where
  width : m < 2 ^ 53
  low : -1074 ≤ e
  full : e = -1074 ∨ 2 ^ 52 ≤ m

theorem toNat_one_append (v : BitVec 52) : (1#1 ++ v).toNat = 2 ^ 52 + v.toNat := by
  rw [BitVec.toNat_append, ← Nat.shiftLeft_add_eq_or_of_lt v.isLt]
  rfl

theorem unpack_canonical {x : Float.Model} {s : Sign} {m : Nat} {e : Int} {hm : 0 < m}
    (h : x.unpack = .finite s m e hm) : Canonical m e := by
  have hwidth := unpack_mantissa x
  rw [h] at hwidth
  have hbias : Format.binary64.exponentBias = 1023 := by decide
  rw [Float.Model.unpack] at h
  simp only [UnpackedFloat.unpack, hbias] at h
  generalize (unpackExponent x.toBits.toBitVec : BitVec Format.binary64.exponentBits) = field at h
  split at h
  · split at h <;> cases h
  · split at h
    · next hzero =>
        split at h
        · cases h
        · obtain ⟨-, rfl, rfl⟩ := UnpackedFloat.finite.inj h
          have hleast : (field.toNat : Int) - (1023 + 52) + 1 = -1074 := by
            rw [hzero]
            decide
          exact ⟨hwidth, hleast.ge, .inl hleast⟩
    · next hnonzero =>
        obtain ⟨-, rfl, rfl⟩ := UnpackedFloat.finite.inj h
        have hpos : field.toNat ≠ 0 := fun heq => hnonzero (BitVec.eq_of_toNat_eq heq)
        refine ⟨hwidth, ?_, .inr ?_⟩
        · show -1074 ≤ (field.toNat : Int) - (1023 + 52)
          omega
        · rw [toNat_one_append]
          omega

theorem unpack_normal (s : Sign) {field : BitVec 11} (bits : BitVec 52) (hones : field ≠ -1#11)
    (hzero : field ≠ 0#11) :
    UnpackedFloat.unpack .binary64 (packComponents .binary64 s field bits) =
      .finite s (2 ^ 52 + bits.toNat) (field.toNat - 1075)
        (Nat.add_pos_left (Nat.two_pow_pos 52) _) := by
  have hbias : Format.binary64.exponentBias = 1023 := by decide
  simp only [UnpackedFloat.unpack, unpackExponent_packComponents, unpackMantissa_packComponents,
    unpackSign_packComponents, Sign.ofBitVec_toBitVec, hbias]
  rw [if_neg hones, if_neg hzero]
  exact (UnpackedFloat.finite.injEq ..).mpr ⟨rfl, toNat_one_append bits, rfl⟩

theorem unpack_subnormal (s : Sign) {bits : BitVec 52} (h : 0 < bits.toNat) :
    UnpackedFloat.unpack .binary64 (packComponents .binary64 s 0#11 bits) =
      .finite s bits.toNat (-1074) h := by
  have hbits : bits ≠ 0#52 := fun heq => h.ne' (congrArg BitVec.toNat heq)
  have hbias : Format.binary64.exponentBias = 1023 := by decide
  simp only [UnpackedFloat.unpack, unpackExponent_packComponents, unpackMantissa_packComponents,
    unpackSign_packComponents, Sign.ofBitVec_toBitVec, hbias]
  rw [if_neg (by decide), if_pos trivial, dif_neg hbits]
  rfl

/-- How a number is stored: the exponent field is zero unless the mantissa fills its bits. -/
theorem pack_finite {m : Nat} {e : Int} (hm : 0 < m) (hwidth : m < 2 ^ 53) (hlow : -1074 ≤ e)
    (s : Sign) :
    UnpackedFloat.pack .binary64 (.finite s m e hm) =
      if e ≤ 971 then
        packComponents .binary64 s
          (if 2 ^ 52 ≤ m then BitVec.ofNat 11 (e + 1075).toNat else 0#11) (BitVec.ofNat 52 m)
      else packedInfinity .binary64 s := by
  have hbias : Format.binary64.exponentBias = 1023 := by decide
  have hbits : Format.binary64.mantissaBits = 53 := rfl
  have hlog : m.log2 + 1 = 53 ↔ 2 ^ 52 ≤ m := by
    rw [Nat.succ_inj, Nat.log2_eq_iff hm.ne']
    exact and_iff_left hwidth
  have hfield : (e + (1023 : Nat) + (52 : Nat)).toNat = (e + 1075).toNat := by omega
  simp only [UnpackedFloat.pack, hbias, hbits]
  by_cases hrange : e ≤ 971
  · have hfits : ¬ 2 ^ 11 ≤ (e + (1023 : Nat) + (52 : Nat)).toNat + 1 := by omega
    rw [if_pos hrange, if_neg hfits, hfield]
    by_cases hfull : 2 ^ 52 ≤ m
    · rw [if_pos (hlog.2 hfull), if_pos hfull]
    · rw [if_neg fun hwide => hfull (hlog.1 hwide), if_neg hfull]
  · have hover : 2 ^ 11 ≤ (e + (1023 : Nat) + (52 : Nat)).toNat + 1 := by omega
    rw [if_neg hrange, if_pos hover]

/-- What is stored and read again is what it was, or out of range. -/
theorem Canonical.unpack_pack {m : Nat} {e : Int} (h : Canonical m e) (hm : 0 < m) (s : Sign) :
    (Float.Model.pack (.finite s m e hm)).unpack =
      if e ≤ 971 then .finite s m e hm else .infinity s := by
  obtain ⟨hwidth, hlow, hfull⟩ := h
  show UnpackedFloat.unpack .binary64 (UnpackedFloat.pack .binary64 _) = _
  rw [pack_finite hm hwidth hlow]
  split
  · next hrange =>
      have hmantissa : (BitVec.ofNat 52 m).toNat = m % 2 ^ 52 := BitVec.toNat_ofNat ..
      split
      · next hleast =>
          have hfield : (BitVec.ofNat 11 (e + 1075).toNat).toNat = (e + 1075).toNat := by
            rw [BitVec.toNat_ofNat]
            omega
          have hnot (k : BitVec 11) (hk : k.toNat ≠ (e + 1075).toNat) :
              BitVec.ofNat 11 (e + 1075).toNat ≠ k :=
            fun heq => hk ((congrArg BitVec.toNat heq).symm.trans hfield)
          have hones : (-1#11).toNat = 2047 := rfl
          have hzero : (0#11).toNat = 0 := rfl
          rw [unpack_normal s _ (hnot _ (by omega)) (hnot _ (by omega))]
          refine (UnpackedFloat.finite.injEq ..).mpr ⟨rfl, ?_, ?_⟩
          · omega
          · rw [hfield]
            omega
      · next hpart =>
          have hsame : (BitVec.ofNat 52 m).toNat = m := by omega
          rw [unpack_subnormal s (hsame.symm ▸ hm)]
          exact (UnpackedFloat.finite.injEq ..).mpr
            ⟨rfl, hsame, (hfull.resolve_right hpart).symm⟩
  · cases s <;> rfl

/-! ## Rounding -/

/-- The exponent that the format wants for a number. -/
def wanted (M : Nat) (E : Int) : Int := Format.binary64.targetExponent (totalExponent M E)

theorem wanted_eq (M : Nat) (E : Int) : wanted M E = max (M.log2 + 1 + E - 53) (-1074) := rfl

theorem log2_shiftLeft {M : Nat} (hM : M ≠ 0) (k : Nat) : (M <<< k).log2 = M.log2 + k := by
  have hpos : 0 < 2 ^ k := Nat.two_pow_pos k
  rw [Nat.shiftLeft_eq, Nat.log2_eq_iff (Nat.mul_ne_zero hM hpos.ne'), Nat.pow_add,
    Nat.add_right_comm, Nat.pow_add]
  exact ⟨Nat.mul_le_mul_right _ (Nat.log2_self_le hM),
    Nat.mul_lt_mul_of_pos_right Nat.lt_log2_self hpos⟩

/-- A number in units of an exponent, without its fraction. -/
def inUnits (M : Nat) (E t : Int) : Nat := M * 2 ^ (E - t).toNat / 2 ^ (t - E).toNat

theorem inUnits_lt {M : Nat} {E t : Int} (h : wanted M E ≤ t) : inUnits M E t < 2 ^ 53 := by
  rw [wanted_eq] at h
  rw [inUnits, Nat.div_lt_iff_lt_mul (Nat.two_pow_pos _), ← Nat.pow_add]
  calc M * 2 ^ (E - t).toNat < 2 ^ (M.log2 + 1) * 2 ^ (E - t).toNat :=
        Nat.mul_lt_mul_of_pos_right Nat.lt_log2_self (Nat.two_pow_pos _)
    _ = 2 ^ (M.log2 + 1 + (E - t).toNat) := (Nat.pow_add ..).symm
    _ ≤ 2 ^ (53 + (t - E).toNat) := Nat.pow_le_pow_right (by decide) (by omega)

theorem le_inUnits {M : Nat} (hM : M ≠ 0) {E : Int} (h : wanted M E ≠ -1074) :
    2 ^ 52 ≤ inUnits M E (wanted M E) := by
  have hw := wanted_eq M E
  rw [inUnits, Nat.le_div_iff_mul_le (Nat.two_pow_pos _), ← Nat.pow_add]
  calc 2 ^ (52 + (wanted M E - E).toNat) ≤ 2 ^ (M.log2 + (E - wanted M E).toNat) :=
        Nat.pow_le_pow_right (by decide) (by omega)
    _ = 2 ^ M.log2 * 2 ^ (E - wanted M E).toNat := Nat.pow_add ..
    _ ≤ M * 2 ^ (E - wanted M E).toNat := Nat.mul_le_mul_right _ (Nat.log2_self_le hM)

/-- A mantissa and exponent as a number, zero if the mantissa is. -/
def settle (s : Sign) (m : Nat) (e : Int) : UnpackedFloat :=
  if h : m = 0 then .zero s else .finite s m e (Nat.pos_of_ne_zero h)

/-- What a mantissa that was rounded becomes, which may have one bit too many. -/
def carry (m : Nat) (e : Int) : Nat × Int := if m < 2 ^ 53 then (m, e) else (m / 2, e + 1)

/-- A second shift is for the carry only. -/
theorem shiftToTargetExponent_eq {R : Nat} (hR : R ≤ 2 ^ 53) {t : Int} (ht : -1074 ≤ t) :
    (shiftToTargetExponent .binary64 R t .exact).1.mantissa = (carry R t).1 ∧
      (shiftToTargetExponent .binary64 R t .exact).2 = (carry R t).2 := by
  have hshift : shiftToTargetExponent .binary64 R t .exact =
      (ExtendedMantissa.ofMantissaAndAccuracy R .exact >>> (wanted R t - t).toNat,
        t + (wanted R t - t).toNat) := rfl
  rw [hshift, shiftRight_mantissa, carry]
  show R / 2 ^ (wanted R t - t).toNat = _ ∧ t + (wanted R t - t).toNat = _
  split
  · next hnarrow =>
      have hw : wanted R t ≤ t := targetExponent_le_of_lt hnarrow (by decide) (by omega) ht
      have hnone : (wanted R t - t).toNat = 0 := by omega
      rw [hnone]
      exact ⟨Nat.div_one R, Int.add_zero t⟩
  · next hwide =>
      obtain rfl : R = 2 ^ 53 := Nat.le_antisymm hR (Nat.le_of_not_lt hwide)
      have hone : (wanted (2 ^ 53) t - t).toNat = 1 := by
        rw [wanted_eq, Nat.log2_two_pow]
        omega
      rw [hone]
      exact ⟨rfl, rfl⟩

theorem le_roundedMantissa (em : ExtendedMantissa) : em.mantissa ≤ em.roundedMantissa := by
  rw [ExtendedMantissa.roundedMantissa]
  cases em.accuracy with
  | exact => exact Nat.le_refl _
  | inexact o =>
      cases o with
      | lt => exact Nat.le_refl _
      | eq => exact Nat.le_add_right _ _
      | gt => exact Nat.le_succ _

/-- Rounding goes to one of the two neighbours. -/
theorem round_eq (s : Sign) {M : Nat} (hM : M ≠ 0) (E : Int) :
    ∃ R, inUnits M E (wanted M E) ≤ R ∧ R ≤ inUnits M E (wanted M E) + 1 ∧
      UnpackedFloat.round .binary64 s M E =
        settle s (carry R (wanted M E)).1 (carry R (wanted M E)).2 := by
  have hw := wanted_eq M E
  generalize hd : (E - wanted M E).toNat = d
  have hsame : wanted (M <<< d) (E - d) = wanted M E := by
    rw [wanted_eq, log2_shiftLeft hM, wanted_eq]
    omega
  have hk : (wanted M E - (E - d)).toNat = (wanted M E - E).toNat := by omega
  have hend : E - d + (wanted M E - E).toNat = wanted M E := by omega
  generalize hem : ExtendedMantissa.ofMantissaAndAccuracy (M <<< d) .exact >>>
    (wanted M E - E).toNat = em
  have hunits : em.mantissa = inUnits M E (wanted M E) := by
    rw [← hem, shiftRight_mantissa, inUnits, hd, ← Nat.shiftLeft_eq]
    rfl
  have hlow := le_roundedMantissa em
  have hhigh := roundedMantissa_le em
  rw [hunits] at hlow hhigh
  refine ⟨em.roundedMantissa, hlow, hhigh, ?_⟩
  have hwidth : em.roundedMantissa ≤ 2 ^ 53 := hhigh.trans (inUnits_lt (le_refl _))
  have hfirst : shiftToTargetExponent .binary64 (M <<< d) (E - d) .exact = (em, wanted M E) := by
    have hshift : shiftToTargetExponent .binary64 (M <<< d) (E - d) .exact =
      (ExtendedMantissa.ofMantissaAndAccuracy (M <<< d) .exact >>>
        (wanted (M <<< d) (E - d) - (E - d)).toNat,
        E - d + (wanted (M <<< d) (E - d) - (E - d)).toNat) := rfl
    rw [hshift, hsame, hk, hem, hend]
  obtain ⟨hmantissa, hexponent⟩ := shiftToTargetExponent_eq hwidth (hw ▸ le_max_right _ _)
  have hround : UnpackedFloat.round .binary64 s M E =
      roundWithAccuracy .binary64 s (M <<< d) (E - d) .exact := by
    rw [← hd]
    rfl
  rw [hround, roundWithAccuracy, hfirst, ← hmantissa, ← hexponent]
  rfl

/-- A number is rounded to a mantissa and exponent: those of no stored number come between. -/
structure Rounds (M : Nat) (E : Int) (m : Nat) (e : Int) : Prop where
  canonical : Canonical m e
  ge_of_le : ∀ {m' : Nat} {e' : Int} {a : Nat}, Canonical m' e' → e' = E + a → m' * 2 ^ a ≤ M →
    e' < e ∨ e' = e ∧ m' ≤ m
  le_of_lt : ∀ {m' : Nat} {e' : Int} {a : Nat}, Canonical m' e' → e' = E + a → M < m' * 2 ^ a →
    e < e' ∨ e = e' ∧ m ≤ m'

theorem le_wanted {M m : Nat} {E e : Int} {a : Nat} (hM : M ≠ 0) (h : Canonical m e)
    (he : e = E + a) (hle : m * 2 ^ a ≤ M) : e ≤ wanted M E := by
  have hw := wanted_eq M E
  rcases h.full with hleast | hfull
  · omega
  · have hlog : 52 + a ≤ M.log2 := by
      rw [Nat.le_log2 hM, Nat.pow_add]
      exact (Nat.mul_le_mul_right _ hfull).trans hle
    omega

theorem wanted_le {M m : Nat} {E e : Int} {a : Nat} (hM : M ≠ 0) (h : Canonical m e)
    (he : e = E + a) (hlt : M < m * 2 ^ a) : wanted M E ≤ e := by
  have hw := wanted_eq M E
  have hlow := h.low
  have hlog : M.log2 < 53 + a := by
    rw [Nat.log2_lt hM, Nat.pow_add]
    exact hlt.trans (Nat.mul_lt_mul_of_pos_right h.width (Nat.two_pow_pos a))
  omega

theorem inUnits_above (M : Nat) (E : Int) (a : Nat) : inUnits M E (E + a) = M / 2 ^ a := by
  have hup : (E - (E + a)).toNat = 0 := by omega
  have hdown : (E + a - E).toNat = a := by omega
  rw [inUnits, hup, hdown, Nat.pow_zero, Nat.mul_one]

theorem rounds_carry {M R : Nat} (hM : M ≠ 0) {E : Int} (hlow : inUnits M E (wanted M E) ≤ R)
    (hhigh : R ≤ inUnits M E (wanted M E) + 1) :
    Rounds M E (carry R (wanted M E)).1 (carry R (wanted M E)).2 := by
  have hwidth : R ≤ 2 ^ 53 := hhigh.trans (inUnits_lt (le_refl _))
  have hleast : -1074 ≤ wanted M E := le_max_right _ _
  have hfull : wanted M E ≠ -1074 → 2 ^ 52 ≤ R := fun h => (le_inUnits hM h).trans hlow
  rw [carry]
  constructor
  · split
    · next hnarrow => exact ⟨hnarrow, hleast, by omega⟩
    · next hwide => exact ⟨by omega, by omega, by omega⟩
  · intro m' e' a h he hle
    have hexp := le_wanted hM h he hle
    have hsame : e' = wanted M E → m' ≤ R := fun heq => by
      rw [← heq, he, inUnits_above] at hlow
      exact ((Nat.le_div_iff_mul_le (Nat.two_pow_pos a)).2 hle).trans hlow
    split <;> omega
  · intro m' e' a h he hlt
    have hexp := wanted_le hM h he hlt
    have hwidth' := h.width
    have hfull' := h.full
    have hsame : wanted M E = e' → R ≤ m' := fun heq => by
      rw [heq, he, inUnits_above] at hhigh
      exact hhigh.trans ((Nat.div_lt_iff_lt_mul (Nat.two_pow_pos a)).2 hlt)
    split <;> omega

theorem round_rounds (s : Sign) {M : Nat} (hM : M ≠ 0) (E : Int) :
    ∃ m e, Rounds M E m e ∧ UnpackedFloat.round .binary64 s M E = settle s m e := by
  obtain ⟨R, hlow, hhigh, hround⟩ := round_eq s hM E
  exact ⟨_, _, rounds_carry hM hlow hhigh, hround⟩

/-! ## The place of a sum -/

/-- The place of the zeros. -/
def origin : Rank := toLex (0, toLex (0, 0))

theorem rank_lt_of_sign {s s' : Int} (h : s < s') (p q : Int ×ₗ Int) :
    (toLex (s, p) : Rank) < toLex (s', q) := Prod.Lex.toLex_lt_toLex.2 (.inl h)

theorem rank_le_of_magnitude {s e e' m m' : Int} (h : e < e' ∨ e = e' ∧ m ≤ m') :
    (toLex (s, toLex (e, m)) : Rank) ≤ toLex (s, toLex (e', m')) :=
  Prod.Lex.toLex_le_toLex.2 (.inr ⟨rfl, Prod.Lex.toLex_le_toLex.2 h⟩)

theorem not_lt_zero_iff {x : Float} :
    ¬ x < (0.0 : Float) ↔ ∀ a ∈ rank x.toModel.unpack, origin ≤ a := by
  rw [lt_iff, unpack_zero]
  constructor
  · intro h a ha
    exact not_lt.1 fun hlt => h ⟨a, ha, origin, rfl, hlt⟩
  · rintro h ⟨a, ha, b, hb, hlt⟩
    obtain rfl : origin = b := Option.some.inj hb
    exact absurd hlt (not_lt.2 (h a ha))

theorem not_negative {u : UnpackedFloat} (h : ∀ a ∈ rank u, origin ≤ a) :
    u = .notANumber ∨ u = .infinity .positive ∨ (∃ s, u = .zero s) ∨
      ∃ m e hm, u = .finite .positive m e hm := by
  rcases u with s | _ | s | ⟨s, m, e, hm⟩
  · cases s with
    | negative => exact absurd (h _ rfl) (not_le.2 (rank_lt_of_sign (by decide) _ _))
    | positive => exact .inr (.inl rfl)
  · exact .inl rfl
  · exact .inr (.inr (.inl ⟨s, rfl⟩))
  · cases s with
    | negative => exact absurd (h _ rfl) (not_le.2 (rank_lt_of_sign (by decide) _ _))
    | positive => exact .inr (.inr (.inr ⟨m, e, hm, rfl⟩))

/-- What is stored with a positive sign is read with one. -/
theorem origin_le_packed (field : BitVec 11) (bits : BitVec 52) :
    ∀ b ∈ rank (UnpackedFloat.unpack .binary64 (packComponents .binary64 .positive field bits)),
      origin ≤ b := by
  simp only [UnpackedFloat.unpack, unpackExponent_packComponents, unpackMantissa_packComponents,
    unpackSign_packComponents, Sign.ofBitVec_toBitVec]
  intro b hb
  split at hb
  · split at hb
    · obtain rfl := Option.some.inj hb
      exact (rank_lt_of_sign (by decide) _ _).le
    · cases hb
  · split at hb
    · split at hb
      · obtain rfl := Option.some.inj hb
        exact le_refl _
      · obtain rfl := Option.some.inj hb
        exact (rank_lt_of_sign (by decide) _ _).le
    · obtain rfl := Option.some.inj hb
      exact (rank_lt_of_sign (by decide) _ _).le

/-- What is not negative is not when it is stored. -/
theorem origin_le_pack {u : UnpackedFloat} (h : ∀ a ∈ rank u, origin ≤ a) :
    ∀ c ∈ rank (Float.Model.pack u).unpack, origin ≤ c := by
  rcases not_negative h with rfl | rfl | ⟨s, rfl⟩ | ⟨m, e, hm, rfl⟩
  · exact fun c hc => by cases show c ∈ none from hc
  · exact origin_le_packed (-1#11) 0#52
  · exact fun c hc => by cases s <;> exact (Option.some.inj hc).le
  · show ∀ b ∈ rank (UnpackedFloat.unpack .binary64 (UnpackedFloat.pack .binary64 _)), _
    simp only [UnpackedFloat.pack]
    split
    · exact origin_le_packed (-1#11) 0#52
    · split
      · exact origin_le_packed _ _
      · exact origin_le_packed 0#11 _

theorem origin_le_settle (m : Nat) (e : Int) : ∀ a ∈ rank (settle .positive m e), origin ≤ a := by
  rw [settle]
  split
  · exact fun a ha => (Option.some.inj ha).le
  · intro a ha
    obtain rfl := Option.some.inj ha
    exact (rank_lt_of_sign (by decide) _ _).le

/-- A positive number that is not less keeps its place when it is stored. -/
theorem rank_positive {m m' : Nat} {e e' : Int} (h : Canonical m e) (h' : Canonical m' e')
    (hm' : 0 < m') (hle : e' < e ∨ e' = e ∧ m' ≤ m) :
    ∀ b ∈ rank (Float.Model.pack (settle .positive m e)).unpack,
      (toLex (1, toLex (e', (m' : Int))) : Rank) ≤ b := by
  have hm : 0 < m := by
    have hlow := h'.low
    have hfull := h.full
    omega
  intro b hb
  rw [settle, dif_neg hm.ne', h.unpack_pack] at hb
  split at hb
  · obtain rfl := Option.some.inj hb
    exact rank_le_of_magnitude (by omega)
  · obtain rfl := Option.some.inj hb
    exact (rank_lt_of_sign (by decide) _ _).le

theorem rank_negative {m m' : Nat} {e e' : Int} (h : Canonical m e) (he' : e' ≤ 971)
    (hle : e < e' ∨ e = e' ∧ m ≤ m') :
    ∀ b ∈ rank (Float.Model.pack (settle .negative m e)).unpack,
      (toLex (-1, toLex (-e', -(m' : Int))) : Rank) ≤ b := by
  intro b hb
  by_cases hm : m = 0
  · rw [settle, dif_pos hm] at hb
    obtain rfl := Option.some.inj hb
    exact (rank_lt_of_sign (by decide) _ _).le
  · rw [settle, dif_neg hm, h.unpack_pack, if_pos (by omega)] at hb
    obtain rfl := Option.some.inj hb
    exact rank_le_of_magnitude (by omega)

/-- A positive number that is not above the exact value is not above the rounded one. -/
theorem le_rank_round {m M : Nat} {e E : Int} {a : Nat} (hm : 0 < m) (h : Canonical m e)
    (he : e = E + a) (hle : m * 2 ^ a ≤ M) :
    ∀ b ∈ rank (Float.Model.pack (UnpackedFloat.round .binary64 .positive M E)).unpack,
      (toLex (1, toLex (e, (m : Int))) : Rank) ≤ b := by
  have hM : M ≠ 0 := (Nat.lt_of_lt_of_le (Nat.mul_pos hm (Nat.two_pow_pos a)) hle).ne'
  obtain ⟨r, f, hrounds, hround⟩ := round_rounds .positive hM E
  rw [hround]
  exact rank_positive hrounds.canonical h hm (hrounds.ge_of_le h he hle)

/-- A negative number that is below the exact value is not above the rounded one. -/
theorem le_rank_normalize {m : Nat} {n e E : Int} {a : Nat} (h : Canonical m e) (htop : e ≤ 971)
    (he : e = E + a) (hlt : -(m * 2 ^ a : Nat) < n) :
    ∀ b ∈ rank (Float.Model.pack (UnpackedFloat.normalize .binary64 n E .positive)).unpack,
      (toLex (-1, toLex (-e, -(m : Int))) : Rank) ≤ b := by
  intro b hb
  rw [UnpackedFloat.normalize] at hb
  split at hb
  · next hneg =>
      rw [compare_lt_iff_lt] at hneg
      obtain ⟨r, f, hrounds, hround⟩ := round_rounds .negative (M := (-n).toNat) (by omega) E
      rw [hround] at hb
      exact rank_negative hrounds.canonical htop (hrounds.le_of_lt h he (by omega)) b hb
  · obtain rfl := Option.some.inj hb
    exact (rank_lt_of_sign (by decide) _ _).le
  · next hpos =>
      rw [compare_gt_iff_gt] at hpos
      obtain ⟨r, f, -, hround⟩ := round_rounds .positive (M := n.toNat) (by omega) E
      rw [hround] at hb
      exact (rank_lt_of_sign (by decide) _ _).le.trans
        (origin_le_pack (origin_le_settle r f) b hb)

/-- A finite number is not above its sum with a positive one. -/
theorem rank_le_add_finite {s : Sign} {m m' : Nat} {e e' : Int} (hm : 0 < m) (hm' : 0 < m')
    (h : Canonical m e) (htop : e ≤ 971) :
    ∀ a ∈ rank (.finite s m e hm), ∀ b ∈ rank (Float.Model.pack
      (add .binary64 (.finite s m e hm) (.finite .positive m' e' hm'))).unpack, a ≤ b := by
  have hadd : add .binary64 (.finite s m e hm) (.finite .positive m' e' hm') =
      UnpackedFloat.normalize .binary64 (s.apply ((m <<< (e - min e e').toNat : Nat) : Int) +
        ((m' <<< (e' - min e e').toNat : Nat) : Int)) (min e e') .positive := rfl
  have hunit : e = min e e' + (e - min e e').toNat := by omega
  have hpos : 0 < m' <<< (e' - min e e').toNat := by
    rw [Nat.shiftLeft_eq]
    exact Nat.mul_pos hm' (Nat.two_pow_pos _)
  rw [hadd]
  generalize min e e' = E at hunit hpos ⊢
  generalize (e - E).toNat = a at hunit ⊢
  generalize m' <<< (e' - E).toNat = N at hpos ⊢
  rw [Nat.shiftLeft_eq]
  intro p hp b hb
  cases s with
  | negative =>
      obtain rfl := Option.some.inj hp
      have hlt : -((m * 2 ^ a : Nat) : Int) < -((m * 2 ^ a : Nat) : Int) + (N : Int) := by omega
      exact le_rank_normalize h htop hunit hlt b hb
  | positive =>
      obtain rfl := Option.some.inj hp
      have hsum : Sign.positive.apply ((m * 2 ^ a : Nat) : Int) + (N : Int) =
        (m * 2 ^ a + N : Nat) := (Int.natCast_add ..).symm
      have hgt : compare ((m * 2 ^ a + N : Nat) : Int) 0 = .gt := by
        rw [compare_gt_iff_gt]
        omega
      rw [hsum, UnpackedFloat.normalize, hgt] at hb
      exact le_rank_round hm h hunit (Nat.le_add_right _ N) b hb

/-- No number is above its sum with one that is not negative. -/
theorem rank_le_add {x y : Float.Model} (hy : ∀ b ∈ rank y.unpack, origin ≤ b) :
    ∀ c ∈ rank (x.add y).unpack, ∃ a ∈ rank x.unpack, a ≤ c := by
  intro c hc
  rw [Float.Model.add] at hc
  have hmissing (h : add .binary64 x.unpack y.unpack = .notANumber) :
      ∃ a ∈ rank x.unpack, a ≤ c := by
    rw [h] at hc
    cases show c ∈ none from hc
  have hfirst (h : add .binary64 x.unpack y.unpack = x.unpack) :
      ∃ a ∈ rank x.unpack, a ≤ c := by
    rw [h, pack_unpack] at hc
    exact ⟨c, hc, le_refl c⟩
  have hsecond (h : add .binary64 x.unpack y.unpack = y.unpack) : c ∈ rank y.unpack := by
    rwa [h, pack_unpack] at hc
  cases hux : x.unpack with
  | notANumber => exact hux ▸ hmissing (by rw [hux]; rfl)
  | infinity s =>
      rw [hux] at hmissing hfirst
      rcases not_negative hy with huy | huy | ⟨s', huy⟩ | ⟨m', e', hm', huy⟩
      · exact hmissing (by rw [huy]; rfl)
      · cases s with
        | negative => exact hmissing (by rw [huy]; rfl)
        | positive => exact hfirst (by rw [huy]; rfl)
      · exact hfirst (by rw [huy]; rfl)
      · exact hfirst (by rw [huy]; rfl)
  | zero s =>
      refine ⟨origin, rfl, ?_⟩
      rcases not_negative hy with huy | huy | ⟨s', huy⟩ | ⟨m', e', hm', huy⟩
      · exact hy c (hsecond (by rw [hux, huy]; rfl))
      · exact hy c (hsecond (by rw [hux, huy]; rfl))
      · rw [hux, huy] at hc
        cases s <;> cases s' <;> exact (Option.some.inj hc).le
      · exact hy c (hsecond (by rw [hux, huy]; rfl))
  | finite s m e hm =>
      rcases not_negative hy with huy | huy | ⟨s', huy⟩ | ⟨m', e', hm', huy⟩
      · exact hux ▸ hmissing (by rw [hux, huy]; rfl)
      · have htop := hsecond (by rw [hux, huy]; rfl)
        rw [huy] at htop
        obtain rfl := Option.some.inj htop
        cases s <;> exact ⟨_, rfl, (rank_lt_of_sign (by decide) _ _).le⟩
      · exact hux ▸ hfirst (by rw [hux, huy]; rfl)
      · have hfinite := unpack_exponent (x := x) (by rw [hux]; rfl)
        rw [hux] at hfinite
        rw [hux, huy] at hc
        obtain ⟨a, ha⟩ : ∃ a, a ∈ rank (.finite s m e hm) := by
          cases s <;> exact ⟨_, rfl⟩
        exact ⟨a, ha, rank_le_add_finite hm hm' (unpack_canonical hux) hfinite a ha c hc⟩

/-- No product of two factors that are not negative is. -/
theorem origin_le_mul {u v : UnpackedFloat} (hu : ∀ a ∈ rank u, origin ≤ a)
    (hv : ∀ b ∈ rank v, origin ≤ b) : ∀ c ∈ rank (mul .binary64 u v), origin ≤ c := by
  have hmissing : ∀ c ∈ rank .notANumber, origin ≤ c := fun c hc => by cases hc
  have htop : ∀ c ∈ rank (.infinity .positive), origin ≤ c := fun c hc => by
    obtain rfl := Option.some.inj hc
    exact (rank_lt_of_sign (by decide) _ _).le
  have hzero (s : Sign) : ∀ c ∈ rank (.zero s), origin ≤ c := fun c hc => (Option.some.inj hc).le
  rcases not_negative hu with rfl | rfl | ⟨s, rfl⟩ | ⟨m, e, hm, rfl⟩
  · exact hmissing
  · rcases not_negative hv with rfl | rfl | ⟨s', rfl⟩ | ⟨m', e', hm', rfl⟩
    · exact hmissing
    · exact htop
    · exact hmissing
    · exact htop
  · rcases not_negative hv with rfl | rfl | ⟨s', rfl⟩ | ⟨m', e', hm', rfl⟩
    · exact hmissing
    · exact hmissing
    · exact hzero _
    · exact hzero _
  · rcases not_negative hv with rfl | rfl | ⟨s', rfl⟩ | ⟨m', e', hm', rfl⟩
    · exact hmissing
    · exact htop
    · exact hzero _
    · exact origin_le_settle _ _

end Binary64

instance Scalar.instOrderedSumsFloat : Scalar.OrderedSums Float where
  le_add {x y} hy hsum := by
    obtain ⟨c, hc⟩ := Binary64.beq_self_iff.1 hsum
    obtain ⟨a, ha, hac⟩ := Binary64.rank_le_add (Binary64.not_lt_zero_iff.1 hy) c hc
    exact Binary64.le_iff.2 ⟨a, ha, c, hc, hac⟩
  mul_not_neg hx hy :=
    Binary64.not_lt_zero_iff.2 (Binary64.origin_le_pack
      (Binary64.origin_le_mul (Binary64.not_lt_zero_iff.1 hx) (Binary64.not_lt_zero_iff.1 hy)))
  tenth_not_neg := by decide +kernel

instance Scalar.instOrderedSumsRat : Scalar.OrderedSums Rat where
  le_add {x y} hy _ := le_add_of_nonneg_right (not_lt.1 hy)
  mul_not_neg hx hy := not_lt.2 (mul_nonneg (not_lt.1 hx) (not_lt.1 hy))
  tenth_not_neg := by decide +kernel

end NoteRoll
