import Mathlib
import NoteRoll.Proofs.CheckedRuns
import NoteRoll.Proofs.PaintOrder
import NoteRoll.Proofs.Reopening
import NoteRoll.Proofs.Rounding
import NoteRoll.Proofs.VerticalDrags
import NoteRoll.Proofs.WholeParts

/-!
# Sums of cells

A block of cells is at least one cell wide and high: the painter counts one on from its first
column and its first row. Both are pixels cast to 64 bits, and what is too far off is cast to
the greatest number that there is. One on from there is none, and the painter stops.

So the roll is painted unless something that is shown begins in the last column or row. Which
pixels lie there their floors alone do not say. There are no numbers of 53 bits just below
`2 ^ 63`, so it is those from `2 ^ 63` itself on (`value_gap`). The other sums of the painter, the
pitches of the rows, are always in range: a row of cells is not above the top of the grid.
-/

namespace NoteRoll

/-! ## The last cell -/

namespace Binary64

open Float.Model
open Float.Model.UnpackedFloat

/-- From `2 ^ 62` on, a mantissa below `2 ^ 53` has an exponent of ten or more. -/
theorem magnitude_gap {m : Nat} {e : Int} (h : Canonical m e)
    (hle : 9223372036854775807 ≤ magnitude m e) : 9223372036854775808 ≤ magnitude m e := by
  have he : 10 ≤ e := by
    by_contra hless
    have hlt : magnitude m e < 2 ^ (62 : Int) := by
      calc magnitude m e < 2 ^ (53 + e) := magnitude_lt_zpow h.width e
        _ ≤ 2 ^ (62 : Int) := zpow_le_zpow_right₀ one_le_two (by omega)
    norm_num at hlt
    linarith
  obtain ⟨k, rfl⟩ : ∃ k : Nat, e = 10 + k := ⟨(e - 10).toNat, by omega⟩
  have hwhole : magnitude m (10 + (k : Int)) = (1024 * (m * 2 ^ k) : Nat) := by
    rw [magnitude, zpow_add₀ two_ne_zero, zpow_natCast]
    push_cast
    ring
  rw [hwhole] at hle ⊢
  have hle' : 9223372036854775807 ≤ 1024 * (m * 2 ^ k) := by exact_mod_cast hle
  have hle'' : 9223372036854775808 ≤ 1024 * (m * 2 ^ k) := by omega
  exact_mod_cast hle''

/-- There are no numbers just below `2 ^ 63`. -/
theorem value_gap {x : Float.Model} {v : Rat} (hv : v ∈ value x.unpack)
    (h : 9223372036854775807 ≤ v) : 9223372036854775808 ≤ v := by
  have htop : ((9223372036854775808 : Int) : Rat) ≤ top :=
    le_trans (Int.cast_le.2 (wide_le_top (by decide))) (Int.floor_le top)
  rcases unpack_cases x with hx | ⟨s, hx⟩ | ⟨s, hx⟩ | ⟨s, m, e, hm, hx, hcanonical, -⟩ <;>
    rw [hx] at hv
  · cases hv
  · obtain rfl := Option.some.inj hv
    cases s
    · have hneg : signed .negative top < 0 := neg_lt_zero.2 top_pos
      linarith
    · exact_mod_cast htop
  · obtain rfl := Option.some.inj hv
    norm_num at h
  · obtain rfl := Option.some.inj hv
    cases s
    · have hneg : signed .negative (magnitude m e) < 0 := neg_lt_zero.2 (magnitude_pos hm e)
      linarith
    · exact magnitude_gap hcanonical h

/-- Zero by a positive number, be it infinite. -/
theorem value_zero_div {c : Float} (hc : (0.0 : Float) < c) :
    (0 : Rat) ∈ value ((0.0 : Float) / c).toModel.unpack := by
  obtain ⟨z, hz⟩ := beq_self_iff_value.1 (number_div (x := 0.0) rfl hc)
  have hzero : z = 0 := by
    rcases unpack_positive hc with ⟨s, hc⟩ | ⟨m, e, hm, hc⟩
    · exact value_div_infinity hc z hz
    · obtain ⟨z', hz', -, -, hnear⟩ := value_div value_zero hc
      obtain rfl : z = z' := Option.some.inj (hz.symm.trans hz')
      replace hnear := hnear (neg_lt_zero.2 top_pos) top_pos
      rw [zero_div] at hnear
      exact le_antisymm (hnear.le nearest_zero le_rfl) (nearest_zero.le hnear le_rfl)
  exact hzero ▸ hz

/-- The middle of a row of cells is a finite pixel, and none above the first row. -/
theorem zero_le_add_half {n : Nat} (hn : n ≤ 65535) :
    (Scalar.ofNat n + 0.5 : Float).isFinite = true ∧ (0.0 : Float) ≤ Scalar.ofNat n + 0.5 := by
  have hwhole : (Scalar.ofNat n : Float) = ofWhole n := if_pos ⟨by omega, by omega⟩
  have hfinite : (ofWhole n).isFinite = true := by
    rw [ofWhole, if_neg (not_lt.2 (Int.natCast_nonneg n))]
    exact (toFloat_exponent _).isFinite
  rw [hwhole]
  have hsum : (ofWhole n + 0.5).isFinite = true := isFinite_add hfinite (by decide)
  have hhalf : ofWhole n ≤ ofWhole n + 0.5 :=
    Scalar.OrderedSums.le_add (by decide) (beq_self_iff_value.2 (value_of_isFinite hsum))
  obtain ⟨v, hv, w, hw, hvw⟩ := le_iff_value.1 hhalf
  obtain rfl : v = (n : Int) := Option.some.inj (hv.symm.trans (value_ofWhole (by omega)))
  have hnonneg : (0 : Rat) ≤ (n : Int) := Int.cast_nonneg (Int.natCast_nonneg n)
  exact ⟨hsum, le_iff_value.2 ⟨0, value_zero, w, hw, hnonneg.trans hvw⟩⟩

/-- The least pixel that is cast to the greatest number. -/
def pixelsEnd : Float := 9223372036854775808.0

theorem value_pixelsEnd : value pixelsEnd.toModel.unpack = some 9223372036854775808 := by
  decide +kernel

end Binary64

namespace Roll

theorem cellOf_of_value {x : Float} {v : Rat} (hv : v ∈ Binary64.value x.toModel.unpack) :
    cellOf x = max (-9223372036854775808) (min 9223372036854775807 ⌊v⌋) :=
  Binary64.truncate_floor hv (by decide) (by decide)

theorem inCells_cellOf (x : Float) : InCells (cellOf x) :=
  ⟨le_max_left _ _, max_le (by decide) (min_le_left _ _)⟩

theorem inCells_cellFrom (x : Float) : InCells (cellFrom x) :=
  ⟨le_max_left _ _, max_le (by decide) (min_le_left _ _)⟩

/-- What is no number is cast to zero. -/
theorem cellOf_of_missing {x : Float} (h : x.toModel.unpack = .notANumber) : cellOf x = 0 := by
  have hnot {y : Float} : ¬ x < y := by
    rw [Binary64.lt_iff_value, h]
    rintro ⟨v, hv, -⟩
    cases hv
  have hfloor : Binary64.floor x = x := by
    rw [Binary64.floor, Binary64.isSettled, decide_eq_false hnot]
    rfl
  show max _ (min _ (Binary64.whole (Binary64.floor x))) = _
  rw [hfloor, Binary64.whole, if_neg hnot]
  show max _ (min _ (x.toModel.unpack.toUInt64.toNat : Int)) = _
  rw [h]
  rfl

/-- There is a next cell, unless the pixel is one of those that are cast to the greatest
number. -/
theorem hasNext_iff {x : Float} : InCells (cellOf x + 1) ↔ ¬ Binary64.pixelsEnd ≤ x := by
  have hlow := (inCells_cellOf x).1
  have hnext : InCells (cellOf x + 1) ↔ cellOf x < 9223372036854775807 := by
    rw [InCells]
    omega
  rw [hnext, Binary64.le_iff_value]
  rw [Binary64.value_pixelsEnd]
  cases hx : Binary64.value x.toModel.unpack with
  | none =>
      have hmissing : x.toModel.unpack = .notANumber := by
        rcases Binary64.unpack_cases x.toModel with h | ⟨s, h⟩ | ⟨s, h⟩ | ⟨s, m, e, hm, h, -⟩
        · exact h
        all_goals
          rw [h] at hx
          cases hx
      rw [cellOf_of_missing hmissing]
      refine iff_of_true (by decide) ?_
      rintro ⟨-, -, v, hv, -⟩
      cases hv
  | some v =>
      have hend : 9223372036854775807 ≤ ⌊v⌋ ↔ 9223372036854775808 ≤ v := by
        rw [Int.le_floor]
        push_cast
        exact ⟨Binary64.value_gap hx, fun h => by linarith⟩
      simp only [Option.mem_some_iff, exists_eq_left', ← hend, cellOf_of_value hx]
      omega

/-- No row of cells is above the top of the grid. -/
theorem rowAt_cellCenter_nonneg {grid : Grid Float} (hheight : 0 < grid.rowHeight)
    (view : Viewport Float) {row : Nat} (hrow : row ≤ 65535) :
    0 ≤ grid.rowAt (view.cellCenter 0 row).y := by
  obtain ⟨hfinite, habove⟩ := Binary64.zero_le_add_half hrow
  have htop : grid.rowAt 0.0 = 0 := by
    have hfloor : grid.rowAt 0.0 = max (-2147483648) (min 2147483647 ⌊(0 : Rat)⌋) :=
      Binary64.truncate_floor (Binary64.value_zero_div hheight) (by decide) (by decide)
    rw [hfloor, Int.floor_zero]
    decide
  calc 0 = grid.rowAt 0.0 := htop.symm
    _ ≤ grid.rowAt (view.cellCenter 0 row).y :=
      Grid.rowAt_le_rowAt hheight hfinite rfl habove

/-- All casts are in range. So are all sums, and the roll is painted, exactly if no note that is
shown and no ghost begins at the end of the pixels or beyond, to the right or below. -/
theorem drawn_iff_near (session : Session Float) {grid : Grid Float} (hheight : 0 < grid.rowHeight)
    (hhigh : grid.highPitch ≤ 255) {view : Viewport Float} (hrows : view.rows ≤ 65535)
    (overlay : Overlay Float) :
    (∀ x : Float, InCells (cellOf x) ∧ InCells (cellFrom x)) ∧
    project? session grid view overlay =
      if ∀ n ∈ shownNotes session overlay ++ overlay.ghosts,
          ¬ Binary64.pixelsEnd ≤ grid.beatToX n.start - view.scrollX ∧
          ¬ Binary64.pixelsEnd ≤ grid.pitchToY n.pitch then
        some (project session grid view overlay) else none := by
  refine ⟨fun x => ⟨inCells_cellOf x, inCells_cellFrom x⟩, ?_⟩
  have hpitches : ∀ row ∈ List.range view.rows, HasPitch grid view row := by
    intro row hrow
    have hnonneg := rowAt_cellCenter_nonneg hheight view ((List.mem_range.1 hrow).le.trans hrows)
    have hmost : grid.rowAt (view.cellCenter 0 row).y ≤ 2147483647 :=
      Scalar.OrderedRows.truncate_le _
    exact ⟨by omega, by omega⟩
  have hnear (n : Note Float) : HasNext grid view n ↔
      ¬ Binary64.pixelsEnd ≤ grid.beatToX n.start - view.scrollX ∧
        ¬ Binary64.pixelsEnd ≤ grid.pitchToY n.pitch := by
    rw [← hasNext_iff, ← hasNext_iff]
    exact ⟨fun h => ⟨h.right, h.below⟩, fun h => ⟨h.1, h.2⟩⟩
  rw [project?_eq]
  simp only [hnear]
  exact if_congr (and_iff_right hpitches) rfl rfl

/-- A text of two notes, one at the beginning and one further off than cells are counted. -/
def distant : String :=
  "\x7b\"bpm\": 120,
    \"tracks\": [[\"t\", \"Lead\", \"instrument\"]],
    \"clips\": \x7b\"c\": [\x7b\"note\": 60, \"start\": 0, \"duration\": 1, \"velocity\": 90\x7d,
      \x7b\"note\": 62, \"start\": 1e300, \"duration\": 1, \"velocity\": 90\x7d]\x7d,
    \"arrangement\": [\x7b\"track_id\": \"t\", \"clip_id\": \"c\"\x7d]\x7d"

/-- The piece that the text writes. -/
def distantPiece : Piece Float where
  bpm := 120.0
  tracks := [⟨"t", "Lead", .instrument, false⟩]
  clips := [("c", [⟨none, 60, 0.0, 1.0, 90, none⟩, ⟨none, 62, 1e300, 1.0, 90, none⟩])]
  arrangement := [⟨"", 0, "t", "c"⟩]

set_option maxRecDepth 10000 in
theorem ofText_distant : Piece.ofText distant = .ok distantPiece := by
  refine Session.ofText_of_read (d := ⟨some (some distantPiece.bpm),
    some (some distantPiece.tracks), some (some distantPiece.clips),
    some (some distantPiece.arrangement)⟩) rfl ?_ rfl
  decide +kernel

/-- The session that has taken over the text. -/
def distantSession : Session Float := (Session.fresh.applyPiece distantPiece).2

/-- Without the far note all sums are in range. -/
theorem near_drawn :
    let grid : Grid Float := ⟨4.0, 1.0, 60, 62⟩
    let view : Viewport Float := ⟨0.0, 5, 3⟩
    let overlay : Overlay Float := ⟨[], [2], none, none⟩
    0 < grid.rowHeight ∧ project? distantSession grid view overlay =
      some [[.empty false .bar, .empty false .none, .empty false .none, .empty false .none,
          .empty false .beat],
        [.empty true .bar, .empty true .none, .empty true .none, .empty true .none,
          .empty true .beat],
        [.note 0 false, .note 0 false, .note 0 false, .note 0 false, .empty false .beat]] := by
  intro grid view overlay
  have hheight : 0 < grid.rowHeight := by decide +kernel
  have hrows : view.rows ≤ 65535 := by decide
  obtain ⟨-, hpainted⟩ := drawn_iff_near distantSession hheight (by decide) hrows overlay
  refine ⟨hheight, hpainted.trans ((if_pos (by decide +kernel)).trans (congrArg some ?_))⟩
  decide +kernel

/-- The text is accepted, and there is no column behind that of its far note: it is not drawn. With
rows as high as that note is far, there is no row behind the one of the near note either. -/
theorem distant_stops :
    let grid : Grid Float := ⟨4.0, 1.0, 60, 62⟩
    let view : Viewport Float := ⟨0.0, 5, 3⟩
    Session.fresh.importText distant = (.ok 2, distantSession) ∧
    (distantSession.document.notes.map fun n =>
      cellOf (grid.beatToX n.start - view.scrollX)) = [0, 9223372036854775807] ∧
    project? distantSession grid view ⟨[], [], none, none⟩ = none ∧
    project? distantSession { grid with rowHeight := 1e300 } view ⟨[], [2], none, none⟩ = none := by
  intro grid view
  have himport : Session.fresh.importText distant = (.ok 2, distantSession) := by
    rw [Session.importText, ofText_distant]
    rfl
  refine ⟨himport, ?_⟩
  decide +kernel

end Roll

end NoteRoll
