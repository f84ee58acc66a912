import Mathlib.Data.Rat.Floor
import Mathlib.Tactic.Linarith
import Mathlib.Tactic.NormNum
import Mathlib.Tactic.Ring
import NoteRoll.Proofs.PaintedCells
import NoteRoll.Snap

/-!
# Where a snapped position lies

A snapped position is told by what competes with it: it is a multiple of the quantum, no
further than half a quantum from where it was, and halfway between two multiples it is
the one away from zero. `Nearest` says that without a word about rounding, and no two
multiples can both be it, so the laws of snapping need not look into the rounding again.
A multiple is nearest to itself, which makes snapping a projection; the mirror image of
the nearest multiple is nearest to the mirror image; and two nearest multiples in the
wrong order would be a quantum apart, which leaves no room for the positions.

The rounding itself is a floor or a ceiling by the sign of the number. It has its place
in `nearest_round` and nowhere else.
-/

namespace NoteRoll

/-! ## Rounding -/

namespace Scalar

variable {x : Rat}

theorem round_of_nonneg (h : 0 ≤ x) : round x = ((x + 1 / 2).floor : Rat) := by
  have hsign : ¬ x.num < 0 := not_lt.2 (Rat.num_nonneg.2 h)
  show (if x.num < 0 then _ else ((x + mkRat 1 2).floor : Rat)) = _
  rw [if_neg hsign]
  norm_num

theorem round_of_neg (h : x < 0) : round x = ((x - 1 / 2).ceil : Rat) := by
  have hsign : x.num < 0 := Rat.num_neg.2 h
  show (if x.num < 0 then ((x - mkRat 1 2).ceil : Rat) else _) = _
  rw [if_pos hsign]
  norm_num

end Scalar

namespace Snap

/-! ## Multiples of a quantum -/

/-- A place is a multiple of the quantum. -/
def Hits (quantum x : Rat) : Prop := ∃ k : Int, x = k * quantum

variable {quantum x y z w : Rat}

theorem hits_zero (quantum : Rat) : Hits quantum 0 := ⟨0, by rw [Int.cast_zero, zero_mul]⟩

theorem hits_self (quantum : Rat) : Hits quantum quantum := ⟨1, by rw [Int.cast_one, one_mul]⟩

theorem Hits.neg (h : Hits quantum x) : Hits quantum (-x) := by
  obtain ⟨k, rfl⟩ := h
  exact ⟨-k, by rw [Int.cast_neg, neg_mul]⟩

/-- Two multiples are at least a quantum apart. -/
theorem Hits.add_le (hquantum : 0 < quantum) (hy : Hits quantum y) (hz : Hits quantum z)
    (h : y < z) : y + quantum ≤ z := by
  obtain ⟨k, rfl⟩ := hy
  obtain ⟨m, rfl⟩ := hz
  have hkm : (k : Rat) < m := lt_of_mul_lt_mul_right h hquantum.le
  have hnext : (k : Rat) + 1 ≤ m := by exact_mod_cast hkm
  calc (k : Rat) * quantum + quantum = (k + 1) * quantum := by ring
    _ ≤ m * quantum := mul_le_mul_of_nonneg_right hnext hquantum.le

/-! ## The nearest multiple -/

/-- A multiple of the quantum that none is nearer than; at halfway it is the one that is
further from zero. -/
structure Nearest (quantum x y : Rat) : Prop where
  hits : Hits quantum y
  near : |y - x| ≤ quantum / 2
  away : |y - x| = quantum / 2 → |x| < |y|

theorem nearest_round (x : Rat) : Nearest 1 x (Scalar.round x) := by
  rcases le_or_gt 0 x with h | h
  · rw [Scalar.round_of_nonneg h]
    have hle := Rat.floor_le (x + 1 / 2)
    have hlt := Rat.lt_floor_add_one (x + 1 / 2)
    push_cast at hlt
    refine ⟨⟨_, (mul_one _).symm⟩, abs_le.2 ⟨by linarith, by linarith⟩, fun hhalf => ?_⟩
    rcases eq_or_eq_neg_of_abs_eq hhalf with hup | hdown
    · rw [abs_of_nonneg h]
      exact lt_of_lt_of_le (by linarith) (le_abs_self _)
    · linarith
  · rw [Scalar.round_of_neg h]
    have hle : x - 1 / 2 ≤ ((x - 1 / 2).ceil : Rat) := Rat.le_ceil
    have hlt : ((x - 1 / 2).ceil : Rat) < x - 1 / 2 + 1 := Rat.ceil_lt
    refine ⟨⟨_, (mul_one _).symm⟩, abs_le.2 ⟨by linarith, by linarith⟩, fun hhalf => ?_⟩
    rcases eq_or_eq_neg_of_abs_eq hhalf with hup | hdown
    · linarith
    · rw [abs_of_neg h]
      exact lt_of_lt_of_le (by linarith) (neg_le_abs _)

/-- A quantum is a unit like any other. -/
theorem Nearest.scale (hquantum : 0 < quantum) (h : Nearest 1 (x / quantum) y) :
    Nearest quantum x (y * quantum) := by
  have hplace : x / quantum * quantum = x := div_mul_cancel₀ x hquantum.ne'
  have hdistance : |y * quantum - x| = |y - x / quantum| * quantum := by
    rw [← abs_of_pos hquantum, ← abs_mul, abs_of_pos hquantum, sub_mul, hplace]
  have hsize : |x| = |x / quantum| * quantum := by
    rw [← abs_of_pos hquantum, ← abs_mul, abs_of_pos hquantum, hplace]
  refine ⟨?_, ?_, fun hhalf => ?_⟩
  · obtain ⟨k, rfl⟩ := h.hits
    exact ⟨k, by rw [mul_one]⟩
  · rw [hdistance]
    calc |y - x / quantum| * quantum ≤ 1 / 2 * quantum :=
          mul_le_mul_of_nonneg_right h.near hquantum.le
      _ = quantum / 2 := by ring
  · have hunit : |y - x / quantum| = 1 / 2 := by
      refine mul_right_cancel₀ hquantum.ne' ?_
      rw [← hdistance, hhalf]
      ring
    rw [hsize, abs_mul, abs_of_pos hquantum]
    exact mul_lt_mul_of_pos_right (h.away hunit) hquantum

theorem nearest_snap (h : 0 < quantum) (x : Rat) : Nearest quantum x (snap x quantum) := by
  rw [snap, if_neg (not_le.2 h)]
  exact (nearest_round (x / quantum)).scale h

theorem hits_snap (h : 0 < quantum) (x : Rat) : Hits quantum (snap x quantum) :=
  (nearest_snap h x).hits

theorem nearest_self (hquantum : 0 < quantum) (h : Hits quantum y) : Nearest quantum y y := by
  have hzero : |y - y| = 0 := by rw [sub_self, abs_zero]
  refine ⟨h, ?_, fun hhalf => ?_⟩
  · rw [hzero]
    linarith
  · linarith

theorem Nearest.neg (h : Nearest quantum x y) : Nearest quantum (-x) (-y) := by
  have hdistance : |-y - -x| = |y - x| := by rw [neg_sub_neg, abs_sub_comm]
  refine ⟨h.hits.neg, hdistance.le.trans h.near, fun hhalf => ?_⟩
  rw [abs_neg, abs_neg]
  exact h.away (hdistance.symm.trans hhalf)

/-- A multiple cannot be nearest to a place that a lesser one is nearest to. -/
theorem Nearest.not_below (hquantum : 0 < quantum) (hy : Nearest quantum x y)
    (hz : Nearest quantum x z) : ¬ y < z := by
  intro hlt
  have hgap := hy.hits.add_le hquantum hz.hits hlt
  have hbelow := (abs_le.1 hy.near).1
  have habove := (abs_le.1 hz.near).2
  -- The place is halfway between the two, so zero would have to lie between them too.
  have hdown : y = x - quantum / 2 := by linarith
  have hup : z = x + quantum / 2 := by linarith
  have haway : |x| < |x - quantum / 2| := by
    rw [← hdown]
    refine hy.away ?_
    rw [hdown, sub_sub_cancel_left, abs_neg, abs_of_pos (by linarith)]
  have haway' : |x| < |x + quantum / 2| := by
    rw [← hup]
    refine hz.away ?_
    rw [hup, add_sub_cancel_left, abs_of_pos (by linarith)]
  have hneg : y < 0 := by
    by_contra hnonneg
    rw [← hdown, abs_of_nonneg (not_lt.1 hnonneg)] at haway
    linarith [le_abs_self x]
  have hpos : 0 < z := by
    by_contra hnonpos
    rw [← hup, abs_of_nonpos (not_lt.1 hnonpos)] at haway'
    linarith [neg_le_abs x]
  have hzero := hy.hits.add_le hquantum (hits_zero quantum) hneg
  linarith

/-- There is one nearest multiple. -/
theorem Nearest.unique (hquantum : 0 < quantum) (hy : Nearest quantum x y)
    (hz : Nearest quantum x z) : y = z :=
  le_antisymm (le_of_not_gt (hz.not_below hquantum hy)) (le_of_not_gt (hy.not_below hquantum hz))

theorem Nearest.mono (hquantum : 0 < quantum) (hxw : x ≤ w) (hy : Nearest quantum x y)
    (hz : Nearest quantum w z) : y ≤ z := by
  by_contra hlt
  have hgap := hz.hits.add_le hquantum hy.hits (not_le.1 hlt)
  have habove := (abs_le.1 hy.near).2
  have hbelow := (abs_le.1 hz.near).1
  have hsame : x = w := by linarith
  exact hlt (hy.unique hquantum (hsame ▸ hz)).le

theorem snap_of_hits (hquantum : 0 < quantum) (h : Hits quantum x) : snap x quantum = x :=
  (nearest_snap hquantum x).unique hquantum (nearest_self hquantum h)

/-- Snapping goes to a multiple within half a quantum, from halfway to the one further from
zero. Multiples stay, so snapping once is enough; it is odd and keeps the order. Without a
positive quantum nothing is snapped. -/
theorem snap_to_nearest (quantum : Rat) :
    (0 < quantum → ∀ x : Rat,
      (∃ k : Int, snap x quantum = k * quantum) ∧ |snap x quantum - x| ≤ quantum / 2 ∧
      (|snap x quantum - x| = quantum / 2 → |x| < |snap x quantum|) ∧
      snap (snap x quantum) quantum = snap x quantum ∧
      (∀ k : Int, snap (k * quantum) quantum = k * quantum) ∧
      snap (-x) quantum = -snap x quantum ∧
      ∀ y, x ≤ y → snap x quantum ≤ snap y quantum) ∧
    (quantum ≤ 0 → ∀ x : Rat, snap x quantum = x) := by
  refine ⟨fun hquantum x => ?_, fun hquantum x => if_pos hquantum⟩
  have hnearest := nearest_snap hquantum x
  refine ⟨hnearest.hits, hnearest.near, hnearest.away, snap_of_hits hquantum hnearest.hits,
    fun k => snap_of_hits hquantum ⟨k, rfl⟩, ?_, fun y hxy => ?_⟩
  · exact (nearest_snap hquantum (-x)).unique hquantum hnearest.neg
  · exact hnearest.mono hquantum hxy (nearest_snap hquantum y)

/-- A quantum of three tenths, halfway between two of its multiples left of zero. -/
theorem snap_to_nearest_halfway :
    snap (-9 / 20 : Rat) (3 / 10) = -3 / 5 ∧ |snap (-9 / 20 : Rat) (3 / 10) - -9 / 20| = 3 / 20 ∧
    |(-9 / 20 : Rat)| < |snap (-9 / 20) (3 / 10)| ∧ snap (-3 / 5 : Rat) (3 / 10) = -3 / 5 ∧
    snap (9 / 20 : Rat) (3 / 10) = 3 / 5 ∧ snap (-9 / 20 : Rat) (3 / 10) ≤ snap (-2 / 5) (3 / 10) ∧
    snap (-9 / 20 : Rat) (-1) = -9 / 20 := by
  have hplace : snap (-9 / 20 : Rat) (3 / 10) = -3 / 5 := by decide +kernel
  obtain ⟨hsnaps, -⟩ := snap_to_nearest (3 / 10)
  obtain ⟨-, -, haway, honce, -, hodd, hmono⟩ := hsnaps (by norm_num) (-9 / 20)
  obtain ⟨-, hoff⟩ := snap_to_nearest (-1)
  have hhalf : |snap (-9 / 20 : Rat) (3 / 10) - -9 / 20| = 3 / 20 := by
    rw [hplace]
    norm_num [abs_of_neg]
  refine ⟨hplace, hhalf, haway (hhalf.trans (by norm_num)), ?_, ?_, hmono _ (by norm_num),
    hoff (by norm_num) _⟩
  · rw [hplace] at honce
    exact honce
  · rw [hplace] at hodd
    have hmirror : (9 / 20 : Rat) = -(-9 / 20) := by norm_num
    rw [hmirror, hodd]
    norm_num

end Snap

end NoteRoll
