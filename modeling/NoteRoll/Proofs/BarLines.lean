import Mathlib.Data.Rat.Floor
import Mathlib.Order.Bounds.Defs
import Mathlib.Tactic.Linarith
import Mathlib.Tactic.NormNum
import Mathlib.Tactic.Ring
import NoteRoll.Proofs.PaintedCells

/-!
# Where the bars begin

A column of the roll is a stretch of one pixel, closed on the left and open on the right.
It should show the line of a bar if a bar begins in it, else that of a beat if a beat
does. What it is asked for is the first beat that is not left of it. That settles whether
a beat begins in it at all: if any does, the first one does. Whether a bar begins in it is
another question, and is answered for the first beat only.

Where a beat is at least a column wide the two questions are one, because no column has
room for a second beat. Below that the line of a bar is missed wherever another beat of
the same column comes before it, and the number in the ruler with it. Scrolled by one
beat, a roll of half a column per beat has no bars. There is no other mistake: a bar that
is shown begins where it is shown, and its number is its own.
-/

namespace NoteRoll

/-! ## Multiples of four -/

theorem Scalar.isMultipleOfFour_iff (beat : Int) :
    Scalar.isMultipleOfFour (beat : Rat) = true ↔ 4 ∣ beat := by
  have hfour : (OfScientific.ofScientific 40 true 1 : Rat) = 4 := by norm_num
  show (true && (((beat : Rat) / OfScientific.ofScientific 40 true 1).floor : Rat) *
    OfScientific.ofScientific 40 true 1 == (beat : Rat)) = true ↔ _
  rw [hfour, Bool.true_and, beq_iff_eq]
  constructor
  · intro h
    exact ⟨((beat : Rat) / 4).floor, by rw [mul_comm]; exact_mod_cast h.symm⟩
  · rintro ⟨k, rfl⟩
    have hquotient : ((4 * k : Int) : Rat) / 4 = (k : Rat) := by
      push_cast
      ring
    rw [hquotient, Rat.floor_intCast]
    push_cast
    ring

namespace Roll

variable {grid : Grid Rat} {view : Viewport Rat} {col : Nat} {beat : Int}

/-! ## Beats in a column -/

/-- A whole beat begins in a column: its pixel is not left of it, nor right. -/
def BeginsIn (grid : Grid Rat) (view : Viewport Rat) (col : Nat) (beat : Int) : Prop :=
  view.scrollX + col ≤ grid.beatToX beat ∧ grid.beatToX beat < view.scrollX + col + 1

instance instDecidableBeginsIn (grid : Grid Rat) (view : Viewport Rat) (col : Nat) (beat : Int) :
    Decidable (BeginsIn grid view col beat) := inferInstanceAs (Decidable (_ ∧ _))

/-- The line that belongs in a column: a bar's where one of the fourth beats begins in it, a
beat's where none of these does but another. -/
def Belongs (grid : Grid Rat) (view : Viewport Rat) (col : Nat) : GridLine → Prop
  | .bar => ∃ k : Int, BeginsIn grid view col (4 * k)
  | .beat => (¬ ∃ k : Int, BeginsIn grid view col (4 * k)) ∧ ∃ beat, BeginsIn grid view col beat
  | .none => ¬ ∃ beat, BeginsIn grid view col beat

/-- The first whole beat that is not left of a column. -/
def firstBeat (grid : Grid Rat) (view : Viewport Rat) (col : Nat) : Int :=
  ((view.scrollX + col) / grid.beatWidth).ceil

theorem beatFrom_eq : beatFrom grid view col = (firstBeat grid view col : Rat) := rfl

theorem firstBeat_le_iff (hwidth : 0 < grid.beatWidth) :
    firstBeat grid view col ≤ beat ↔ view.scrollX + col ≤ grid.beatToX beat := by
  rw [firstBeat, Rat.ceil_le_iff, div_le_iff₀ hwidth]
  rfl

theorem beatToX_le {beat beat' : Int} (hwidth : 0 < grid.beatWidth) (h : beat ≤ beat') :
    grid.beatToX beat ≤ grid.beatToX beat' :=
  mul_le_mul_of_nonneg_right (Int.cast_le.2 h) hwidth.le

/-- If any beat begins in a column, the first one that is not left of it does. -/
theorem BeginsIn.first (hwidth : 0 < grid.beatWidth) (h : BeginsIn grid view col beat) :
    IsLeast {beat | BeginsIn grid view col beat} (firstBeat grid view col) := by
  have hle := (firstBeat_le_iff hwidth).2 h.1
  refine ⟨⟨(firstBeat_le_iff hwidth).1 le_rfl, (beatToX_le hwidth hle).trans_lt h.2⟩, ?_⟩
  intro other hother
  exact (firstBeat_le_iff hwidth).2 hother.1

/-- Columns that are no wider than a beat have room for one beat. -/
theorem BeginsIn.unique {beat beat' : Int} (hwide : 1 ≤ grid.beatWidth)
    (h : BeginsIn grid view col beat) (h' : BeginsIn grid view col beat') : beat = beat' := by
  have hstep {earlier later : Int} (hlt : earlier < later) :
      grid.beatToX earlier + 1 ≤ grid.beatToX later := by
    have hnext : (earlier : Rat) + 1 ≤ later := by exact_mod_cast hlt
    calc grid.beatToX earlier + 1 ≤ earlier * grid.beatWidth + grid.beatWidth :=
          add_le_add_right hwide _
      _ = (earlier + 1) * grid.beatWidth := by ring
      _ ≤ later * grid.beatWidth := mul_le_mul_of_nonneg_right hnext (by linarith)
  rcases lt_trichotomy beat beat' with hlt | heq | hlt
  · have hgap := hstep hlt
    exact absurd h'.2 (not_lt.2 (by linarith [h.1]))
  · exact heq
  · have hgap := hstep hlt
    exact absurd h.2 (not_lt.2 (by linarith [h'.1]))

/-! ## Lines -/

/-- The line of a column goes by the first beat that begins in it. -/
theorem gridLine_cases (hwidth : 0 < grid.beatWidth) (view : Viewport Rat) (col : Nat) :
    (gridLine grid view col = .none ∧ ∀ beat, ¬ BeginsIn grid view col beat) ∨
    IsLeast {beat | BeginsIn grid view col beat} (firstBeat grid view col) ∧
      gridLine grid view col = if 4 ∣ firstBeat grid view col then .bar else .beat := by
  by_cases hnone : view.scrollX + col + 1 ≤ grid.beatToX (firstBeat grid view col)
  · refine .inl ⟨if_pos hnone, fun beat hbegins => ?_⟩
    exact absurd (hbegins.first hwidth).1.2 (not_lt.2 hnone)
  · have hbegins : BeginsIn grid view col (firstBeat grid view col) :=
      ⟨(firstBeat_le_iff hwidth).1 le_rfl, not_le.1 hnone⟩
    refine .inr ⟨hbegins.first hwidth, (if_neg hnone).trans ?_⟩
    rw [beatFrom_eq]
    simp only [Scalar.isMultipleOfFour_iff]

theorem gridLine_eq_none_iff (hwidth : 0 < grid.beatWidth) :
    gridLine grid view col = .none ↔ ∀ beat, ¬ BeginsIn grid view col beat := by
  rcases gridLine_cases hwidth view col with ⟨hline, hnone⟩ | ⟨hfirst, hline⟩
  · exact ⟨fun _ => hnone, fun _ => hline⟩
  · refine ⟨fun h => ?_, fun hnone => absurd hfirst.1 (hnone _)⟩
    rw [hline] at h
    split at h <;> cases h

theorem gridLine_eq_bar_iff (hwidth : 0 < grid.beatWidth) :
    gridLine grid view col = .bar ↔
      ∃ k : Int, IsLeast {beat | BeginsIn grid view col beat} (4 * k) := by
  rcases gridLine_cases hwidth view col with ⟨hline, hnone⟩ | ⟨hfirst, hline⟩
  · rw [hline]
    constructor
    · intro h
      cases h
    · rintro ⟨k, hleast⟩
      exact absurd hleast.1 (hnone _)
  · rw [hline]
    constructor
    · intro h
      split at h
      · next hfourth =>
          obtain ⟨k, hk⟩ := hfourth
          exact ⟨k, hk ▸ hfirst⟩
      · cases h
    · rintro ⟨k, hleast⟩
      exact if_pos ⟨k, hfirst.unique hleast⟩

/-- A column shows the line that belongs in it unless it misses a bar. -/
theorem belongs_iff (hwidth : 0 < grid.beatWidth) :
    Belongs grid view col (gridLine grid view col) ↔
      ((∃ k : Int, BeginsIn grid view col (4 * k)) → gridLine grid view col = .bar) := by
  cases hline : gridLine grid view col with
  | none =>
      have hnone := (gridLine_eq_none_iff hwidth).1 hline
      refine ⟨fun _ => ?_, fun _ => ?_⟩
      · rintro ⟨k, hbegins⟩
        exact absurd hbegins (hnone _)
      · rintro ⟨beat, hbegins⟩
        exact hnone beat hbegins
  | bar =>
      obtain ⟨k, hleast⟩ := (gridLine_eq_bar_iff hwidth).1 hline
      exact ⟨fun _ _ => rfl, fun _ => ⟨k, hleast.1⟩⟩
  | beat =>
      rcases gridLine_cases hwidth view col with ⟨hnone, -⟩ | ⟨hfirst, -⟩
      · rw [hline] at hnone
        cases hnone
      · refine ⟨fun hbelongs hbar => absurd hbar hbelongs.1, fun hmissed => ?_⟩
        refine ⟨fun hbar => ?_, _, hfirst.1⟩
        cases hmissed hbar

theorem belongs_of_wide (hwide : 1 ≤ grid.beatWidth) (view : Viewport Rat) (col : Nat) :
    Belongs grid view col (gridLine grid view col) := by
  have hwidth : 0 < grid.beatWidth := one_pos.trans_le hwide
  rw [belongs_iff hwidth]
  rintro ⟨k, hbegins⟩
  have hfirst := hbegins.first hwidth
  exact (gridLine_eq_bar_iff hwidth).2 ⟨k, hbegins.unique hwide hfirst.1 ▸ hfirst⟩

/-- A view that begins a beat before the second bar, on a scale where both are in one column. -/
def beforeBar (grid : Grid Rat) : Viewport Rat := ⟨3 * grid.beatWidth, 1, 1⟩

theorem beforeBar_missed (hwidth : 0 < grid.beatWidth) (hnarrow : grid.beatWidth < 1) :
    ¬ Belongs grid (beforeBar grid) 0 (gridLine grid (beforeBar grid) 0) := by
  have hthird : BeginsIn grid (beforeBar grid) 0 3 := by
    simp only [BeginsIn, beforeBar, Grid.beatToX]
    push_cast
    exact ⟨by linarith, by linarith⟩
  have hfourth : BeginsIn grid (beforeBar grid) 0 (4 * 1) := by
    simp only [BeginsIn, beforeBar, Grid.beatToX]
    push_cast
    exact ⟨by linarith, by linarith⟩
  rw [belongs_iff hwidth]
  intro hbar
  obtain ⟨k, hleast⟩ := (gridLine_eq_bar_iff hwidth).1 (hbar ⟨1, hfourth⟩)
  have hle : 4 * k ≤ 3 := hleast.2 hthird
  -- No beat before the third is right of the left edge.
  have hge : 3 ≤ 4 * k := by
    have hleft := hleast.1.1
    simp only [beforeBar, Grid.beatToX] at hleft
    push_cast at hleft
    have hbeats : (3 : Rat) ≤ ((4 * k : Int) : Rat) := by
      refine le_of_mul_le_mul_right ?_ hwidth
      push_cast
      linarith
    exact_mod_cast hbeats
  omega

/-! ## The ruler -/

/-- The labels are on the columns that show bars, from left to right. -/
theorem rulerLabels_columns (grid : Grid Rat) (view : Viewport Rat) :
    (rulerLabels grid view).map Prod.fst =
      (List.range view.cols).filter fun col => gridLine grid view col = .bar := by
  rw [rulerLabels, List.map_filterMap, ← List.filterMap_eq_filter]
  refine List.filterMap_congr fun col _ => ?_
  by_cases hbar : gridLine grid view col = .bar <;> simp [hbar, Option.guard]

theorem barNumber_eq {k : Int} (hk : 0 ≤ k) (hcounted : k + 1 < 4294967296) :
    (barNumber ((4 * k : Int) : Rat) : Int) = k + 1 := by
  have hfour : (Piece.beatsPerBar : Rat) = 4 := by
    show (OfScientific.ofScientific 40 true 1 : Rat) = 4
    norm_num
  have hquotient : ((4 * k : Int) : Rat) / Piece.beatsPerBar = (k : Rat) := by
    rw [hfour]
    push_cast
    ring
  have hnumber : barNumber ((4 * k : Int) : Rat) =
      (Scalar.truncateNat32 (((4 * k : Int) : Rat) / Piece.beatsPerBar) + 1) % 4294967296 := rfl
  rw [hnumber, hquotient, Scalar.truncateNat32, Scalar.truncate_intCast]
  omega

/-- A label has the number of the first bar that begins in its column. -/
theorem number_of_label (hwidth : 0 < grid.beatWidth) (hscroll : 0 ≤ view.scrollX)
    {label : Nat × Nat} (h : label ∈ rulerLabels grid view) :
    ∃ k : Int, IsLeast {k | BeginsIn grid view label.1 (4 * k)} k ∧
      (k + 1 < 4294967296 → (label.2 : Int) = k + 1) := by
  obtain ⟨col, -, hlabel⟩ := List.mem_filterMap.1 h
  split at hlabel
  · next hbar =>
      obtain rfl := Option.some.inj hlabel
      obtain ⟨k, hleast⟩ := (gridLine_eq_bar_iff hwidth).1 hbar
      refine ⟨k, ⟨hleast.1, fun other hother => ?_⟩, fun hcounted => ?_⟩
      · have hle : 4 * k ≤ 4 * other := hleast.2 hother
        omega
      · -- The view begins at the first bar, or right of it.
        have hpixel : (0 : Rat) ≤ ((4 * k : Int) : Rat) * grid.beatWidth :=
          (add_nonneg hscroll (Nat.cast_nonneg col)).trans hleast.1.1
        have hbeats : (0 : Rat) ≤ ((4 * k : Int) : Rat) := nonneg_of_mul_nonneg_left hpixel hwidth
        have hk : 0 ≤ 4 * k := by exact_mod_cast hbeats
        rw [beatFrom_eq, (hleast.1.first hwidth).unique hleast]
        exact barNumber_eq (by omega) hcounted
  · cases hlabel

/-- Every column of every view shows the line that belongs in it exactly if a beat is at
least a column wide. On any scale a column is empty exactly if no beat begins in it, and it
shows a bar exactly if the first beat that begins in it is one, so what belongs there is
shown unless a bar comes second. The ruler lists the columns that show bars, from left to
right, each with the number of the first bar that begins in it, as far as 32 bits count. -/
theorem bars_shown_iff (hwidth : 0 < grid.beatWidth) :
    ((∀ view : Viewport Rat, 0 ≤ view.scrollX → ∀ col < view.cols,
        Belongs grid view col (gridLine grid view col)) ↔ 1 ≤ grid.beatWidth) ∧
    ∀ view : Viewport Rat,
      (∀ col,
        (gridLine grid view col = .none ↔ ∀ beat, ¬ BeginsIn grid view col beat) ∧
        (gridLine grid view col = .bar ↔
          ∃ k : Int, IsLeast {beat | BeginsIn grid view col beat} (4 * k)) ∧
        (Belongs grid view col (gridLine grid view col) ↔
          ((∃ k : Int, BeginsIn grid view col (4 * k)) →
            ∃ k : Int, IsLeast {beat | BeginsIn grid view col beat} (4 * k)))) ∧
      (rulerLabels grid view).map Prod.fst =
        (List.range view.cols).filter (fun col => gridLine grid view col = .bar) ∧
      (0 ≤ view.scrollX → ∀ label ∈ rulerLabels grid view,
        ∃ k : Int, IsLeast {k | BeginsIn grid view label.1 (4 * k)} k ∧
          (k + 1 < 4294967296 → (label.2 : Int) = k + 1)) := by
  refine ⟨⟨fun hall => ?_, fun hwide view _ col _ => belongs_of_wide hwide view col⟩,
    fun view => ⟨fun col => ?_, rulerLabels_columns grid view, ?_⟩⟩
  · by_contra hnarrow
    have hscroll : 0 ≤ (beforeBar grid).scrollX := mul_nonneg (by norm_num) hwidth.le
    exact beforeBar_missed hwidth (not_le.1 hnarrow) (hall _ hscroll 0 one_pos)
  · refine ⟨gridLine_eq_none_iff hwidth, gridLine_eq_bar_iff hwidth, ?_⟩
    rw [belongs_iff hwidth, gridLine_eq_bar_iff hwidth]
  · exact fun hscroll label hlabel => number_of_label hwidth hscroll hlabel

/-- Beats of three and a half columns, scrolled by a third of one. -/
theorem bars_shown_scrolled :
    let grid : Grid Rat := ⟨7 / 2, 1, 60, 71⟩
    let view : Viewport Rat := ⟨1 / 3, 40, 12⟩
    (∀ col < 40, Belongs grid view col (gridLine grid view col)) ∧
    rulerLabels grid view = [(13, 2), (27, 3)] ∧
    (∃ k : Int, IsLeast {k | BeginsIn grid view 27 (4 * k)} k ∧ 3 = k + 1) ∧
    gridLine grid view 13 = .bar ∧ gridLine grid view 17 = .beat ∧ gridLine grid view 14 = .none := by
  intro grid view
  obtain ⟨hall, hviews⟩ := bars_shown_iff (show 0 < grid.beatWidth by decide +kernel)
  obtain ⟨-, -, hnumbers⟩ := hviews view
  have hlabels : rulerLabels grid view = [(13, 2), (27, 3)] := by decide +kernel
  obtain ⟨k, hleast, hnumber⟩ := hnumbers (by decide +kernel) (27, 3) (by rw [hlabels]; decide)
  refine ⟨hall.2 (by decide +kernel) view (by decide +kernel), hlabels, ⟨k, hleast, ?_⟩,
    by decide +kernel, by decide +kernel, by decide +kernel⟩
  have hbound : k ≤ 2 := hleast.2 (show BeginsIn grid view 27 (4 * 2) by decide +kernel)
  exact hnumber (by omega)

/-- Half a column per beat, scrolled by one beat: two bars begin in the view, and it shows
beats only. -/
theorem bars_missed :
    let grid : Grid Rat := ⟨1 / 2, 24, 60, 71⟩
    let view : Viewport Rat := ⟨grid.beatToX 1, 5, 1⟩
    BeginsIn grid view 1 (4 * 1) ∧ BeginsIn grid view 3 (4 * 2) ∧
    (List.range 5).map (gridLine grid view) = List.replicate 5 .beat ∧
    rulerLabels grid view = [] ∧ ¬ Belongs grid view 1 (gridLine grid view 1) := by
  intro grid view
  have hbegins : BeginsIn grid view 1 (4 * 1) := by decide +kernel
  have hline : gridLine grid view 1 = .beat := by decide +kernel
  refine ⟨hbegins, by decide +kernel, by decide +kernel, by decide +kernel, ?_⟩
  rw [hline]
  exact fun hbelongs => hbelongs.1 ⟨1, hbegins⟩

end Roll

end NoteRoll
