import Mathlib
import NoteRoll.Proofs.Rounding

/-!
# The values of binary numbers

The order of binary numbers is one of signs, exponents and mantissas. Where what is
computed with them is at stake, they are better looked at as fractions: a mantissa is multiplied
by a power of two. Both give the same order, since the mantissa of a number that is stored is
full unless its exponent is the least, so a greater exponent always means a greater number.

The infinite numbers are given a value as well, the first power of two that is out of range.
With it every number that is one has a value, all comparisons are comparisons of values, and
what is stored when a result is out of range is the lesser of it and that bound.
-/

namespace NoteRoll

namespace Binary64

open Float.Model
open Float.Model.UnpackedFloat

/-! ## Mantissas and exponents -/

/-- The value of a mantissa and an exponent. -/
def magnitude (m : Nat) (e : Int) : Rat := m * 2 ^ e

theorem magnitude_pos {m : Nat} (hm : 0 < m) (e : Int) : 0 < magnitude m e :=
  mul_pos (by exact_mod_cast hm) (zpow_pos two_pos e)

theorem magnitude_shiftLeft (m k : Nat) (e : Int) :
    magnitude (m <<< k) (e - k) = magnitude m e := by
  rw [magnitude, magnitude, Nat.shiftLeft_eq, zpow_sub₀ two_ne_zero, zpow_natCast]
  push_cast
  field_simp

theorem magnitude_zero (e : Int) : magnitude 0 e = 0 := by
  rw [magnitude, Nat.cast_zero, zero_mul]

theorem magnitude_nonneg (m : Nat) (e : Int) : 0 ≤ magnitude m e :=
  mul_nonneg (Nat.cast_nonneg m) (zpow_pos two_pos e).le

theorem magnitude_lt_zpow {m : Nat} (h : m < 2 ^ 53) (e : Int) : magnitude m e < 2 ^ (53 + e) := by
  have hwidth : (m : Rat) < 2 ^ (53 : Int) := by exact_mod_cast h
  calc magnitude m e < 2 ^ (53 : Int) * 2 ^ e :=
        mul_lt_mul_of_pos_right hwidth (zpow_pos two_pos e)
    _ = 2 ^ (53 + e) := (zpow_add₀ two_ne_zero ..).symm

theorem zpow_le_magnitude {m : Nat} (h : 2 ^ 52 ≤ m) (e : Int) : 2 ^ (52 + e) ≤ magnitude m e := by
  have hfull : (2 : Rat) ^ (52 : Int) ≤ m := by exact_mod_cast h
  calc (2 : Rat) ^ (52 + e) = 2 ^ (52 : Int) * 2 ^ e := zpow_add₀ two_ne_zero ..
    _ ≤ magnitude m e := mul_le_mul_of_nonneg_right hfull (zpow_pos two_pos e).le

theorem magnitude_lt {m m' : Nat} {e e' : Int} (h : Canonical m e) (h' : Canonical m' e')
    (hlt : e < e' ∨ e = e' ∧ m < m') : magnitude m e < magnitude m' e' := by
  rcases hlt with hexp | ⟨rfl, hmantissa⟩
  · have hlow := h.low
    calc magnitude m e < 2 ^ (53 + e) := magnitude_lt_zpow h.width e
      _ ≤ 2 ^ (52 + e') := zpow_le_zpow_right₀ one_le_two (by omega)
      _ ≤ magnitude m' e' := zpow_le_magnitude (h'.full.resolve_left (by omega)) e'
  · exact mul_lt_mul_of_pos_right (by exact_mod_cast hmantissa) (zpow_pos two_pos e)

theorem magnitude_le {m m' : Nat} {e e' : Int} (h : Canonical m e) (h' : Canonical m' e')
    (hle : e < e' ∨ e = e' ∧ m ≤ m') : magnitude m e ≤ magnitude m' e' := by
  rcases hle with hexp | ⟨rfl, hmantissa⟩
  · exact (magnitude_lt h h' (.inl hexp)).le
  · exact mul_le_mul_of_nonneg_right (by exact_mod_cast hmantissa) (zpow_pos two_pos e).le

/-- Where the numbers end that can be stored. -/
@[irreducible] def top : Rat := 2 ^ (1024 : Int)

theorem top_eq : top = 2 ^ (1024 : Int) := by rw [top]

theorem top_pos : 0 < top := top_eq ▸ zpow_pos two_pos _

theorem magnitude_lt_top {m : Nat} {e : Int} (h : Canonical m e) (he : e ≤ 971) :
    magnitude m e < top := by
  calc magnitude m e < 2 ^ (53 + e) := magnitude_lt_zpow h.width e
    _ ≤ top := top_eq ▸ zpow_le_zpow_right₀ one_le_two (by omega)

theorem top_le_magnitude {m : Nat} {e : Int} (h : Canonical m e) (he : ¬ e ≤ 971) :
    top ≤ magnitude m e := by
  calc top ≤ 2 ^ (52 + e) := top_eq ▸ zpow_le_zpow_right₀ one_le_two (by omega)
    _ ≤ magnitude m e := zpow_le_magnitude (h.full.resolve_left (by omega)) e

/-- A magnitude with its sign. -/
def signed : Sign → Rat → Rat
  | .positive, v => v
  | .negative, v => -v

/-- The value of a number. An infinite one stands where the finite ones end. -/
def value : UnpackedFloat → Option Rat
  | .notANumber => none
  | .infinity s => some (signed s top)
  | .zero _ => some 0
  | .finite s m e _ => some (signed s (magnitude m e))

/-- What is read from 64 bits. -/
theorem unpack_cases (x : Float.Model) :
    x.unpack = .notANumber ∨ (∃ s, x.unpack = .infinity s) ∨ (∃ s, x.unpack = .zero s) ∨
      ∃ s m e hm, x.unpack = .finite s m e hm ∧ Canonical m e ∧ e ≤ 971 := by
  cases hx : x.unpack with
  | notANumber => exact .inl rfl
  | infinity s => exact .inr (.inl ⟨s, rfl⟩)
  | zero s => exact .inr (.inr (.inl ⟨s, rfl⟩))
  | finite s m e hm =>
      have htop := unpack_exponent (x := x) (by rw [hx]; rfl)
      rw [hx] at htop
      exact .inr (.inr (.inr ⟨s, m, e, hm, rfl, unpack_canonical hx, htop⟩))

/-- The kinds of numbers in their order: each is between two bounds of its own. -/
theorem value_band {x : Float.Model} {s : Int} {p : Int ×ₗ Int} {v : Rat}
    (ha : (toLex (s, p) : Rank) ∈ rank x.unpack) (hv : v ∈ value x.unpack) :
    (s = -2 ∧ v = -top) ∨ (s = -1 ∧ -top < v ∧ v < 0) ∨ (s = 0 ∧ v = 0) ∨
      (s = 1 ∧ 0 < v ∧ v < top) ∨ (s = 2 ∧ v = top) := by
  rcases unpack_cases x with hx | ⟨s', hx⟩ | ⟨s', hx⟩ | ⟨s', m, e, hm, hx, hcanonical, he⟩ <;>
    rw [hx] at ha hv
  · cases ha
  · cases s' <;> cases ha <;> cases hv <;> simp [signed]
  · cases ha
    cases hv
    simp
  · have hpos := magnitude_pos hm e
    have hlt := magnitude_lt_top hcanonical he
    cases s' <;> cases ha <;> cases hv <;> simp [signed, hpos, hlt]

/-- Only the finite numbers other than zero have more than one place for their kind. -/
theorem rank_kind {u : UnpackedFloat} {s : Int} {p : Int ×ₗ Int}
    (ha : (toLex (s, p) : Rank) ∈ rank u) :
    (p = toLex (0, 0) ∧ s ≠ -1 ∧ s ≠ 1) ∨
      ∃ (m : Nat) (e : Int) (hm : 0 < m),
        (s = -1 ∧ p = toLex (-e, -(m : Int)) ∧ u = .finite .negative m e hm) ∨
        (s = 1 ∧ p = toLex (e, (m : Int)) ∧ u = .finite .positive m e hm) := by
  rcases u with s' | _ | s' | ⟨s', m, e, hm⟩
  · cases s' <;> cases ha <;> exact .inl ⟨rfl, by decide, by decide⟩
  · cases ha
  · cases ha
    exact .inl ⟨rfl, by decide, by decide⟩
  · cases s' <;> cases ha
    · exact .inr ⟨m, e, hm, .inl ⟨rfl, rfl, rfl⟩⟩
    · exact .inr ⟨m, e, hm, .inr ⟨rfl, rfl, rfl⟩⟩

theorem value_lt_of_kind {x y : Float.Model} {s : Int} {p q : Int ×ₗ Int} {v w : Rat}
    (ha : (toLex (s, p) : Rank) ∈ rank x.unpack) (hb : (toLex (s, q) : Rank) ∈ rank y.unpack)
    (hv : v ∈ value x.unpack) (hw : w ∈ value y.unpack) (hlt : p < q) : v < w := by
  rcases rank_kind ha with ⟨rfl, hne, hne'⟩ | ⟨m, e, hm, hx⟩ <;>
    rcases rank_kind hb with ⟨rfl, hne', hne''⟩ | ⟨m', e', hm', hy⟩
  · exact absurd hlt (lt_irrefl _)
  · omega
  · omega
  · rcases hx with ⟨rfl, rfl, hx⟩ | ⟨rfl, rfl, hx⟩ <;> rcases hy with ⟨hs, rfl, hy⟩ | ⟨hs, rfl, hy⟩
    · rw [hx] at hv
      rw [hy] at hw
      cases hv
      cases hw
      exact neg_lt_neg (magnitude_lt (unpack_canonical hy) (unpack_canonical hx)
        (by simpa only [Prod.Lex.toLex_lt_toLex, neg_lt_neg_iff, neg_inj, Nat.cast_lt, eq_comm]
          using hlt))
    · omega
    · omega
    · rw [hx] at hv
      rw [hy] at hw
      cases hv
      cases hw
      exact magnitude_lt (unpack_canonical hx) (unpack_canonical hy)
        (by simpa only [Prod.Lex.toLex_lt_toLex, Nat.cast_lt] using hlt)

theorem value_lt_of_rank_lt {x y : Float.Model} {a b : Rank} {v w : Rat} (ha : a ∈ rank x.unpack)
    (hb : b ∈ rank y.unpack) (hv : v ∈ value x.unpack) (hw : w ∈ value y.unpack) (hlt : a < b) :
    v < w := by
  obtain ⟨s, p⟩ := a
  obtain ⟨t, q⟩ := b
  rcases Prod.Lex.lt_iff.1 hlt with hkind | ⟨heq, hrest⟩
  · have htop := top_pos
    have hkind : s < t := hkind
    have hx := value_band ha hv
    have hy := value_band hb hw
    rcases hx with ⟨hs, hx⟩ | ⟨hs, hx⟩ | ⟨hs, hx⟩ | ⟨hs, hx⟩ | ⟨hs, hx⟩ <;>
      rcases hy with ⟨ht, hy⟩ | ⟨ht, hy⟩ | ⟨ht, hy⟩ | ⟨ht, hy⟩ | ⟨ht, hy⟩ <;>
      first | omega | linarith
  · obtain rfl : s = t := heq
    exact value_lt_of_kind ha hb hv hw hrest

theorem value_eq_of_rank_eq {x y : Float.Model} {a : Rank} {v w : Rat} (ha : a ∈ rank x.unpack)
    (hb : a ∈ rank y.unpack) (hv : v ∈ value x.unpack) (hw : w ∈ value y.unpack) : v = w := by
  obtain ⟨s, p⟩ := a
  have hx := value_band ha hv
  have hy := value_band hb hw
  rcases rank_kind ha with ⟨-, hne, hne'⟩ | ⟨m, e, hm, ⟨rfl, rfl, hx⟩ | ⟨rfl, rfl, hx⟩⟩
  · rcases hx with ⟨hs, hx⟩ | ⟨hs, hx⟩ | ⟨hs, hx⟩ | ⟨hs, hx⟩ | ⟨hs, hx⟩ <;>
      rcases hy with ⟨ht, hy⟩ | ⟨ht, hy⟩ | ⟨ht, hy⟩ | ⟨ht, hy⟩ | ⟨ht, hy⟩ <;>
      first | omega | exact hx.trans hy.symm
  all_goals
    rcases rank_kind hb with ⟨-, hne, hne'⟩ | ⟨m', e', hm', ⟨hs, hp, hy⟩ | ⟨hs, hp, hy⟩⟩
    all_goals try omega
    simp only [EmbeddingLike.apply_eq_iff_eq, Prod.mk.injEq, neg_inj, Nat.cast_inj] at hp
    obtain ⟨rfl, rfl⟩ := hp
    rw [hx] at hv
    rw [hy] at hw
    exact Option.some.inj (hv.symm.trans hw)

theorem value_lt_iff {x y : Float.Model} {a b : Rank} {v w : Rat} (ha : a ∈ rank x.unpack)
    (hb : b ∈ rank y.unpack) (hv : v ∈ value x.unpack) (hw : w ∈ value y.unpack) :
    a < b ↔ v < w := by
  refine ⟨value_lt_of_rank_lt ha hb hv hw, fun hlt => ?_⟩
  rcases lt_trichotomy a b with hab | rfl | hab
  · exact hab
  · exact absurd (value_eq_of_rank_eq ha hb hv hw) hlt.ne
  · exact absurd (value_lt_of_rank_lt hb ha hw hv hab) hlt.not_gt

theorem exists_value {u : UnpackedFloat} {a : Rank} (ha : a ∈ rank u) : ∃ v, v ∈ value u := by
  rcases u with s | _ | s | ⟨s, m, e, hm⟩
  · exact ⟨_, rfl⟩
  · cases ha
  · exact ⟨_, rfl⟩
  · exact ⟨_, rfl⟩

theorem exists_rank {u : UnpackedFloat} {v : Rat} (hv : v ∈ value u) : ∃ a, a ∈ rank u := by
  rcases u with s | _ | s | ⟨s, m, e, hm⟩
  · cases s <;> exact ⟨_, rfl⟩
  · cases hv
  · exact ⟨_, rfl⟩
  · cases s <;> exact ⟨_, rfl⟩

/-- Numbers compare as their values do. -/
theorem lt_iff_value {x y : Float} : x < y ↔
    ∃ v ∈ value x.toModel.unpack, ∃ w ∈ value y.toModel.unpack, v < w := by
  rw [lt_iff]
  constructor
  · rintro ⟨a, ha, b, hb, hlt⟩
    obtain ⟨v, hv⟩ := exists_value ha
    obtain ⟨w, hw⟩ := exists_value hb
    exact ⟨v, hv, w, hw, (value_lt_iff ha hb hv hw).1 hlt⟩
  · rintro ⟨v, hv, w, hw, hlt⟩
    obtain ⟨a, ha⟩ := exists_rank hv
    obtain ⟨b, hb⟩ := exists_rank hw
    exact ⟨a, ha, b, hb, (value_lt_iff ha hb hv hw).2 hlt⟩

theorem le_iff_value {x y : Float} : x ≤ y ↔
    ∃ v ∈ value x.toModel.unpack, ∃ w ∈ value y.toModel.unpack, v ≤ w := by
  rw [le_iff]
  constructor
  · rintro ⟨a, ha, b, hb, hle⟩
    obtain ⟨v, hv⟩ := exists_value ha
    obtain ⟨w, hw⟩ := exists_value hb
    exact ⟨v, hv, w, hw, not_lt.1 fun hlt => not_lt.2 hle ((value_lt_iff hb ha hw hv).2 hlt)⟩
  · rintro ⟨v, hv, w, hw, hle⟩
    obtain ⟨a, ha⟩ := exists_rank hv
    obtain ⟨b, hb⟩ := exists_rank hw
    exact ⟨a, ha, b, hb, not_lt.1 fun hlt => not_lt.2 hle ((value_lt_iff hb ha hw hv).1 hlt)⟩

theorem lt_iff_of_value {x y : Float} {v w : Rat} (hv : v ∈ value x.toModel.unpack)
    (hw : w ∈ value y.toModel.unpack) : x < y ↔ v < w := by
  rw [lt_iff_value]
  constructor
  · rintro ⟨v', hv', w', hw', hlt⟩
    rwa [Option.mem_unique hv hv', Option.mem_unique hw hw']
  · exact fun hlt => ⟨v, hv, w, hw, hlt⟩

theorem beq_self_iff_value {x : Float} : (x == x) = true ↔ ∃ v, v ∈ value x.toModel.unpack :=
  beq_self_iff.trans ⟨fun ⟨_, ha⟩ => exists_value ha, fun ⟨_, hv⟩ => exists_rank hv⟩

theorem value_bounds {x : Float.Model} {v : Rat} (hv : v ∈ value x.unpack) :
    -top ≤ v ∧ v ≤ top := by
  have htop := top_pos
  obtain ⟨⟨s, p⟩, ha⟩ := exists_rank hv
  rcases value_band ha hv with ⟨-, h⟩ | ⟨-, h⟩ | ⟨-, h⟩ | ⟨-, h⟩ | ⟨-, h⟩ <;>
    constructor <;> linarith

/-! ## Storing a value -/

theorem signed_zero (s : Sign) : signed s 0 = 0 := by
  cases s
  · exact neg_zero
  · rfl

theorem value_pack_settle {m : Nat} {e : Int} (h : Canonical m e) (s : Sign) :
    value (Float.Model.pack (settle s m e)).unpack =
      some (signed s (min (magnitude m e) top)) := by
  by_cases hm : m = 0
  · subst hm
    rw [magnitude_zero, min_eq_left top_pos.le, signed_zero, settle, dif_pos rfl]
    cases s <;> rfl
  · rw [settle, dif_neg hm, h.unpack_pack]
    split
    · next hrange => rw [min_eq_left (magnitude_lt_top h hrange).le]; rfl
    · next hrange => rw [min_eq_right (top_le_magnitude h hrange)]; rfl

theorem unpack_pack_infinity (s : Sign) :
    (Float.Model.pack (.infinity s)).unpack = .infinity s := by
  cases s <;> rfl

theorem unpack_pack_zero (s : Sign) : (Float.Model.pack (.zero s)).unpack = .zero s := by
  cases s <;> rfl

end Binary64

end NoteRoll
