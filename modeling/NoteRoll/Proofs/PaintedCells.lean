import Mathlib.Data.Rat.Floor
import Mathlib.Tactic.Linarith
import Mathlib.Tactic.NormNum
import NoteRoll.Decimal.Exact
import NoteRoll.Screen.Roll

/-!
# What a cell of the roll shows

The roll is painted layer by layer over lists of cells. Here it is looked at the
other way round, one cell at a time: `cellAt?` is the view, each layer has an
equation on it, and a list of blocks painted one over the other leaves in a cell
the last block that covers it.

Which cells a note covers is said by two casts that saturate and a maximum. For
the cells of a screen this comes down to `Spans`: the note overlaps the cell, or
begins in it. That is `noteBlock_covers_iff`, in exact arithmetic, and nobody
behind it sees a cast again.
-/

namespace NoteRoll

/-! ## Casts -/

namespace Scalar

theorem truncate_intCast (lo hi k : Int) : truncate lo hi (k : Rat) = max lo (min hi k) := by
  show max lo (min hi (if (k : Rat).num < 0 then (k : Rat).ceil else (k : Rat).floor)) = _
  rw [Rat.ceil_intCast, Rat.floor_intCast, ite_self]

theorem truncate_floor (lo hi : Int) (x : Rat) :
    truncate lo hi (floor x) = max lo (min hi x.floor) := truncate_intCast lo hi x.floor

theorem truncate_ceil (lo hi : Int) (x : Rat) :
    truncate lo hi (ceil x) = max lo (min hi x.ceil) := truncate_intCast lo hi x.ceil

end Scalar

theorem Viewport.cellCenter_eq (view : Viewport Rat) (col row : Nat) :
    view.cellCenter col row = ⟨view.scrollX + col + 1 / 2, row + 1 / 2⟩ := by
  have hhalf : (OfScientific.ofScientific 5 true 1 : Rat) = 1 / 2 := by norm_num
  rw [← hhalf]
  rfl

namespace Roll

/-! ## Layers -/

/-- The cells that a rule gives by row and column. -/
def table (rows cols : Nat) (f : Nat → Nat → RollCell) : Cells :=
  (List.range rows).map fun row => (List.range cols).map (f row)

theorem mapIdx_map_range {β γ : Type} (n : Nat) (f : Nat → β) (g : Nat → β → γ) :
    ((List.range n).map f).mapIdx g = (List.range n).map fun i => g i (f i) :=
  List.ext_getElem (by simp) (by simp)

theorem paint_table (block : CellBlock) (cell : RollCell) (rows cols : Nat)
    (f : Nat → Nat → RollCell) :
    paint block cell (table rows cols f) =
      table rows cols fun row col => if block.covers row col then cell else f row col := by
  rw [paint, table, mapIdx_map_range]
  refine List.map_congr_left fun row _ => ?_
  split
  · rw [mapIdx_map_range]
  · next hrow =>
      have hnot : ∀ col, block.covers row col = false := by
        intro col
        simp only [CellBlock.covers, decide_eq_false_iff_not]
        tauto
      simp [hnot]

/-- Of blocks painted one over the other, a cell shows the last one that covers it. -/
theorem foldl_paint_table {β : Type} (block : β → CellBlock) (cell : β → RollCell) (bs : List β)
    (rows cols : Nat) (f : Nat → Nat → RollCell) :
    bs.foldl (fun cells b => paint (block b) (cell b) cells) (table rows cols f) =
      table rows cols fun row col =>
        (((bs.filter fun b => (block b).covers row col).getLast?).map cell).getD (f row col) := by
  induction bs generalizing f with
  | nil => rfl
  | cons b bs ih =>
      rw [List.foldl_cons, paint_table, ih]
      congr 1
      funext row col
      by_cases hcovers : (block b).covers row col = true
      · simp only [List.filter_cons, hcovers, if_true, List.getLast?_cons]
        cases (bs.filter fun b => (block b).covers row col).getLast? <;> rfl
      · simp only [List.filter_cons, if_neg hcovers]

/-- What becomes of one cell where empty cells are filled. -/
def filled (here : Bool) (cell old : RollCell) : RollCell :=
  match old with
  | .empty .. => if here then cell else old
  | _ => old

theorem filled_false (cell old : RollCell) : filled false cell old = old := by
  cases old <;> rfl

theorem fillEmpty_table (here : Nat → Nat → Bool) (cell : RollCell) (rows cols : Nat)
    (f : Nat → Nat → RollCell) :
    fillEmpty here cell (table rows cols f) =
      table rows cols fun row col => filled (here row col) cell (f row col) := by
  rw [fillEmpty, table, mapIdx_map_range]
  refine List.map_congr_left fun row _ => ?_
  rw [mapIdx_map_range]
  rfl

section Project

variable {α : Type} [Scalar α] (session : Session α) (grid : Grid α) (view : Viewport α)
  (overlay : Overlay α)

/-- What a cell shows where there is nothing. -/
def groundAt (row col : Nat) : RollCell :=
  .empty (isBlack (grid.yToPitch (view.cellCenter 0 row).y)) (gridLine grid view col)

/-- What a cell shows of the notes and the ghosts over them. -/
def notesAt (row col : Nat) : RollCell :=
  (((overlay.ghosts.filter fun g => (noteBlock grid view g).covers row col).getLast?).map
    fun _ => RollCell.ghost).getD
  ((((shownNotes session overlay).filter fun n =>
    (noteBlock grid view n).covers row col).getLast?.map (noteCell session)).getD
      (groundAt grid view row col))

theorem background_eq_table :
    background grid view = table view.rows view.cols (groundAt grid view) := by
  rw [background, table]
  refine List.map_congr_left fun row _ => ?_
  rw [List.map_map]
  rfl

/-- The layers one over the other, as one rule for each cell. -/
theorem project_eq_table :
    project session grid view overlay = table view.rows view.cols fun row col =>
      filled (overlay.playhead.any fun beat =>
          decide ((col : Int) = view.colOf (grid.beatToX beat))) .playhead
        (filled (overlay.marquee.any fun r => (marqueeBlock view r).onBorder row col) .marquee
          (notesAt session grid view overlay row col)) := by
  rw [project, background_eq_table, paintNotes, paintNotes, foldl_paint_table,
    foldl_paint_table, putMarks]
  cases overlay.marquee <;> cases overlay.playhead <;>
    simp only [fillEmpty_table, Option.any_none, Option.any_some, filled_false] <;> rfl

end Project

/-- What is shown in a row and a column. -/
def cellAt? (cells : Cells) (row col : Nat) : Option RollCell := cells[row]?.bind (·[col]?)

theorem cellAt?_table {rows cols row col : Nat} (hrow : row < rows) (hcol : col < cols)
    (f : Nat → Nat → RollCell) : cellAt? (table rows cols f) row col = some (f row col) := by
  simp [cellAt?, table, List.getElem?_map, List.getElem?_range hrow, List.getElem?_range hcol]

theorem of_cellAt?_table {rows cols row col : Nat} {f : Nat → Nat → RollCell} {cell : RollCell}
    (h : cellAt? (table rows cols f) row col = some cell) : f row col = cell := by
  obtain ⟨line, hline, hcell⟩ := Option.bind_eq_some_iff.1 h
  rw [table, List.getElem?_map] at hline
  obtain ⟨r, hr, rfl⟩ := Option.map_eq_some_iff.1 hline
  rw [List.getElem?_map] at hcell
  obtain ⟨c, hc, rfl⟩ := Option.map_eq_some_iff.1 hcell
  rw [List.getElem?_eq_some_iff] at hr hc
  obtain ⟨hrow, rfl⟩ := hr
  obtain ⟨hcol, rfl⟩ := hc
  rw [List.getElem_range, List.getElem_range]

/-- Where no ghost is, a cell shows the last of the shown notes that cover it. -/
theorem cellAt?_project {α : Type} [Scalar α] {session : Session α} {grid : Grid α}
    {view : Viewport α} {overlay : Overlay α} {row col : Nat} (hrow : row < view.rows)
    (hcol : col < view.cols)
    (hghosts : ∀ g ∈ overlay.ghosts, (noteBlock grid view g).covers row col = false)
    {n : Note α} (hn : ((shownNotes session overlay).filter fun n =>
      (noteBlock grid view n).covers row col).getLast? = some n) :
    cellAt? (project session grid view overlay) row col = some (noteCell session n) := by
  have hnone : (overlay.ghosts.filter fun g => (noteBlock grid view g).covers row col) = [] :=
    List.filter_eq_nil_iff.2 fun g hg => by simp [hghosts g hg]
  rw [project_eq_table, cellAt?_table hrow hcol, notesAt, hnone, hn]
  rfl

/-! ## The cells of a note -/

/-- The stretch from `a` to `b` overlaps the cell that begins at `c`, or begins in it. -/
def Spans (a b c : Rat) : Prop := a < c + 1 ∧ (c < b ∨ c ≤ a)

/-- The first cell of a stretch and the one behind its last, as they are cast to 64 bits,
for a cell whose number is well within them. -/
theorem spans_iff {a b : Rat} {c : Nat} (hc : c < 9223372036854775807) :
    (Scalar.truncateInt64 (Scalar.floor a) ≤ (c : Int) ∧
      (c : Int) < max (Scalar.truncateInt64 (Scalar.ceil b))
        (Scalar.truncateInt64 (Scalar.floor a) + 1)) ↔ Spans a b c := by
  have hlast : a.floor < (c : Int) + 1 ↔ a < (c : Rat) + 1 := by
    rw [Rat.floor_lt_iff]
    push_cast
    rfl
  have hover : (c : Int) < b.ceil ↔ (c : Rat) < b := by
    rw [Rat.lt_ceil_iff]
    push_cast
    rfl
  have hfirst : (c : Int) ≤ a.floor ↔ (c : Rat) ≤ a := by
    rw [Rat.le_floor_iff]
    push_cast
    rfl
  rw [Spans, ← hlast, ← hover, ← hfirst, Scalar.truncateInt64, Scalar.truncateInt64,
    Scalar.truncate_floor, Scalar.truncate_ceil]
  omega

/-- The pixels that a note takes up, as it is seen. -/
def pixels (grid : Grid Rat) (view : Viewport Rat) (n : Note Rat) : Rect Rat where
  x0 := grid.beatToX n.start - view.scrollX
  y0 := grid.pitchToY n.pitch
  x1 := grid.beatToX n.stop - view.scrollX
  y1 := grid.pitchToY n.pitch + grid.rowHeight

variable {grid : Grid Rat} {view : Viewport Rat} {n : Note Rat} {row col : Nat}

/-- A note covers the cells that its pixels span in both directions. -/
theorem noteBlock_covers_iff (hrow : row < 9223372036854775807)
    (hcol : col < 9223372036854775807) :
    (noteBlock grid view n).covers row col = true ↔
      Spans (pixels grid view n).y0 (pixels grid view n).y1 row ∧
      Spans (pixels grid view n).x0 (pixels grid view n).x1 col := by
  rw [← spans_iff hrow, ← spans_iff hcol, CellBlock.covers, decide_eq_true_iff, and_assoc]
  rfl

/-- A note that begins right of the centre of a cell that it covers begins in the cell. -/
theorem col0_of_cut (hrow : row < 65535) (hcol : col < 65535)
    (hcovers : (noteBlock grid view n).covers row col = true)
    (hcut : (view.cellCenter col row).x < grid.beatToX n.start) :
    (noteBlock grid view n).col0 = col := by
  rw [noteBlock_covers_iff (by omega) (by omega)] at hcovers
  obtain ⟨-, hfirst, -⟩ := hcovers
  rw [Viewport.cellCenter_eq] at hcut
  dsimp only [pixels] at hfirst hcut
  have hfloor : (grid.beatToX n.start - view.scrollX).floor = (col : Int) := by
    refine le_antisymm ?_ ?_
    · rw [← Int.lt_add_one_iff, Rat.floor_lt_iff]
      push_cast
      exact hfirst
    · rw [Rat.le_floor_iff]
      push_cast
      linarith
  dsimp only [noteBlock]
  rw [Scalar.truncateInt64, Scalar.truncate_floor, hfloor]
  omega

/-- A note that ends left of the centre of a cell that it covers ends in the cell. -/
theorem col1_of_cut (hrow : row < 65535) (hcol : col < 65535)
    (hcovers : (noteBlock grid view n).covers row col = true)
    (hcut : grid.beatToX n.stop < (view.cellCenter col row).x) :
    (noteBlock grid view n).col1 = col + 1 := by
  have hlast : (col : Int) < (noteBlock grid view n).col1 := by
    rw [CellBlock.covers, decide_eq_true_iff] at hcovers
    exact hcovers.2.2.2
  rw [noteBlock_covers_iff (by omega) (by omega)] at hcovers
  obtain ⟨-, hfirst, -⟩ := hcovers
  rw [Viewport.cellCenter_eq] at hcut
  dsimp only [pixels] at hfirst hcut
  have hfloor : (grid.beatToX n.start - view.scrollX).floor < (col : Int) + 1 := by
    rw [Rat.floor_lt_iff]
    push_cast
    exact hfirst
  have hceil : (grid.beatToX n.stop - view.scrollX).ceil ≤ (col : Int) + 1 := by
    rw [Rat.ceil_le_iff]
    push_cast
    linarith
  -- Of the two ends of a block the one behind the cell counts, be it the ceiling or the minimum.
  dsimp only [noteBlock] at hlast ⊢
  rw [Scalar.truncateInt64, Scalar.truncateInt64, Scalar.truncate_floor,
    Scalar.truncate_ceil] at hlast ⊢
  omega

end Roll

end NoteRoll
