import Mathlib.Algebra.Order.Field.Rat
import Mathlib.Data.Prod.Lex
import NoteRoll.Scalar

/-!
# The order of numbers

Binary numbers of 64 bits are compared by sign, exponent and mantissa, which is the order
of their values because what is unpacked from 64 bits has one form only. It is a linear
order but for two things: the two zeros have one place in it, and what is no number has
none. `Binary64.rank` says which place a number has, and the laws of comparison are laws of
places.

The laws that the editor rests on are collected in `Scalar.Ordered`. None of them says that
a number is equal to itself, since a missing one is not; that what compares is a number is a
law of its own.
-/

namespace NoteRoll

/-- The laws of comparison, where numbers may be missing. -/
class Scalar.Ordered (α : Type) [Scalar α] : Prop where
  lt_asymm : ∀ {x y : α}, x < y → ¬ y < x
  lt_of_lt_of_le : ∀ {x y z : α}, x < y → y ≤ z → x < z
  lt_of_le_of_lt : ∀ {x y z : α}, x ≤ y → y < z → x < z
  numbers_of_lt : ∀ {x y : α}, x < y → (x == x) = true ∧ (y == y) = true
  le_of_not_lt : ∀ {x y : α}, (x == x) = true → (y == y) = true → ¬ y < x → x ≤ y

/-! ## The larger and the smaller of two numbers -/

namespace Scalar.Ordered

variable {α : Type} [Scalar α] [Scalar.Ordered α] {x y z : α}

theorem lt_of_lt_of_not_lt (hzx : z < x) (hy : (y == y) = true) (hyx : ¬ y < x) : z < y :=
  lt_of_lt_of_le hzx (le_of_not_lt (numbers_of_lt hzx).2 hy hyx)

theorem lt_of_not_lt_of_lt (hx : (x == x) = true) (hyx : ¬ y < x) (hyz : y < z) : x < z :=
  lt_of_le_of_lt (le_of_not_lt hx (numbers_of_lt hyz).1 hyx) hyz

theorem lt_larger : z < larger x y ↔ z < x ∨ z < y := by
  rw [larger]
  split
  · next hyx =>
      refine ⟨.inl, fun h => ?_⟩
      rcases h with hzx | hzy
      · exact hzx
      · exact lt_of_lt_of_not_lt hzy (numbers_of_lt hyx).2 (lt_asymm hyx)
  · next hyx =>
      split
      · next hy =>
          refine ⟨.inr, fun h => ?_⟩
          rcases h with hzx | hzy
          · exact lt_of_lt_of_not_lt hzx hy hyx
          · exact hzy
      · next hy =>
          refine ⟨.inl, fun h => ?_⟩
          rcases h with hzx | hzy
          · exact hzx
          · exact absurd (numbers_of_lt hzy).2 hy

theorem smaller_lt : smaller x y < z ↔ x < z ∨ y < z := by
  rw [smaller]
  split
  · next hxy =>
      refine ⟨.inl, fun h => ?_⟩
      rcases h with hxz | hyz
      · exact hxz
      · exact lt_of_not_lt_of_lt (numbers_of_lt hxy).1 (lt_asymm hxy) hyz
  · next hxy =>
      split
      · next hy =>
          refine ⟨.inr, fun h => ?_⟩
          rcases h with hxz | hyz
          · exact lt_of_not_lt_of_lt hy hxy hxz
          · exact hyz
      · next hy =>
          refine ⟨.inl, fun h => ?_⟩
          rcases h with hxz | hyz
          · exact hxz
          · exact absurd (numbers_of_lt hyz).1 hy

end Scalar.Ordered

/-! ## Binary numbers -/

namespace Binary64

open Float.Model UnpackedFloat

/-- A place in the order: first by sign, then by exponent, then by mantissa. -/
abbrev Rank := Int ×ₗ Int ×ₗ Int

/-- The place of a number. Of two negative ones, that with the lesser exponent and mantissa
is the greater. -/
def rank : UnpackedFloat → Option Rank
  | .notANumber => none
  | .infinity .negative => some (toLex (-2, toLex (0, 0)))
  | .finite .negative m e _ => some (toLex (-1, toLex (-e, -m)))
  | .zero _ => some (toLex (0, toLex (0, 0)))
  | .finite .positive m e _ => some (toLex (1, toLex (e, m)))
  | .infinity .positive => some (toLex (2, toLex (0, 0)))

theorem compare_neg (a b : Int) : compare (-a) (-b) = (compare a b).swap := by
  rw [← Std.OrientedCmp.eq_swap]
  simp only [compare, compareOfLessAndEq, Int.neg_lt_neg_iff, neg_inj, eq_comm]

theorem compare_natCast (a b : Nat) : compare (a : Int) (b : Int) = compare a b := by
  simp only [compare, compareOfLessAndEq, Nat.cast_lt, Nat.cast_inj]

theorem compare_rank (s e m s' e' m' : Int) :
    compare (toLex (s, toLex (e, m)) : Rank) (toLex (s', toLex (e', m'))) =
      (compare s s').then ((compare e e').then (compare m m')) := rfl

/-- Numbers compare as their places do. -/
theorem compare_eq (x y : UnpackedFloat) :
    x.compare y = (rank x).bind fun a => (rank y).map fun b => compare a b := by
  rcases x with s | _ | s | ⟨s, m, e, _⟩ <;> rcases y with s' | _ | s' | ⟨s', m', e', _⟩ <;>
    (try cases s) <;> (try cases s') <;> try rfl
  · show some ((compare e e').then (compare m m')).swap =
      some (compare (toLex (-1, toLex (-e, -m)) : Rank) (toLex (-1, toLex (-e', -m'))))
    rw [compare_rank, compare_neg e, compare_neg m, compare_natCast, Ordering.swap_then]
    rfl
  · show some ((compare e e').then (compare m m')) =
      some (compare (toLex (1, toLex (e, m)) : Rank) (toLex (1, toLex (e', m'))))
    rw [compare_rank, compare_natCast]
    rfl

theorem lt_iff {x y : Float} : x < y ↔
    ∃ a ∈ rank x.toModel.unpack, ∃ b ∈ rank y.toModel.unpack, a < b := by
  have hlt : x < y ↔ x.toModel.unpack.compare y.toModel.unpack = some .lt :=
    ⟨fun h => eq_of_beq (of_decide_eq_true h :), fun h => decide_eq_true (beq_iff_eq.2 h :)⟩
  rw [hlt, compare_eq]
  generalize rank x.toModel.unpack = a
  generalize rank y.toModel.unpack = b
  cases a <;> cases b <;> simp [compare_lt_iff_lt]

theorem le_iff {x y : Float} : x ≤ y ↔
    ∃ a ∈ rank x.toModel.unpack, ∃ b ∈ rank y.toModel.unpack, a ≤ b := by
  have hle : x ≤ y ↔ (x.toModel.unpack.compare y.toModel.unpack).any (·.isLE) = true :=
    ⟨fun h => of_decide_eq_true h, fun h => decide_eq_true h⟩
  rw [hle, compare_eq]
  generalize rank x.toModel.unpack = a
  generalize rank y.toModel.unpack = b
  cases a <;> cases b <;> simp [Ordering.isLE_iff_ne_gt, compare_le_iff_le]

/-- What is a number has a place. -/
theorem beq_self_iff {x : Float} : (x == x) = true ↔ ∃ a, a ∈ rank x.toModel.unpack := by
  have hbeq : (x == x) = true ↔
      (x.toModel.unpack.compare x.toModel.unpack == some .eq) = true := Iff.rfl
  rw [hbeq, compare_eq]
  generalize rank x.toModel.unpack = a
  cases a <;> simp

end Binary64

instance Scalar.instOrderedFloat : Scalar.Ordered Float where
  lt_asymm {x y} hxy hyx := by
    obtain ⟨a, ha, b, hb, hab⟩ := Binary64.lt_iff.1 hxy
    obtain ⟨b', hb', a', ha', hba⟩ := Binary64.lt_iff.1 hyx
    cases Option.mem_unique ha ha'
    cases Option.mem_unique hb hb'
    exact lt_asymm hab hba
  lt_of_lt_of_le hxy hyz := by
    obtain ⟨a, ha, b, hb, hab⟩ := Binary64.lt_iff.1 hxy
    obtain ⟨b', hb', c, hc, hbc⟩ := Binary64.le_iff.1 hyz
    cases Option.mem_unique hb hb'
    exact Binary64.lt_iff.2 ⟨a, ha, c, hc, hab.trans_le hbc⟩
  lt_of_le_of_lt hxy hyz := by
    obtain ⟨a, ha, b, hb, hab⟩ := Binary64.le_iff.1 hxy
    obtain ⟨b', hb', c, hc, hbc⟩ := Binary64.lt_iff.1 hyz
    cases Option.mem_unique hb hb'
    exact Binary64.lt_iff.2 ⟨a, ha, c, hc, hab.trans_lt hbc⟩
  numbers_of_lt hxy := by
    obtain ⟨a, ha, b, hb, -⟩ := Binary64.lt_iff.1 hxy
    exact ⟨Binary64.beq_self_iff.2 ⟨a, ha⟩, Binary64.beq_self_iff.2 ⟨b, hb⟩⟩
  le_of_not_lt hx hy hyx := by
    obtain ⟨a, ha⟩ := Binary64.beq_self_iff.1 hx
    obtain ⟨b, hb⟩ := Binary64.beq_self_iff.1 hy
    refine Binary64.le_iff.2 ⟨a, ha, b, hb, le_of_not_gt fun hba => hyx ?_⟩
    exact Binary64.lt_iff.2 ⟨b, hb, a, ha, hba⟩

instance Scalar.instOrderedRat : Scalar.Ordered Rat where
  lt_asymm := fun h => lt_asymm h
  lt_of_lt_of_le := fun h h' => lt_of_lt_of_le h h'
  lt_of_le_of_lt := fun h h' => lt_of_le_of_lt h h'
  numbers_of_lt {x y} _ := ⟨beq_self_eq_true x, beq_self_eq_true y⟩
  le_of_not_lt _ _ h := not_lt.1 h

end NoteRoll
