import Mathlib.Tactic.NormNum
import NoteRoll.App
import NoteRoll.Proofs.PaintedCells

/-!
# What is grabbed and what is seen

The pointer finds a note by the beat and the row at the centre of a cell. The screen
paints a note on every cell that it touches, and at least on one. The first is part
of the second, at every scale and scroll position.

The converse fails by what painting rounds up. A note that touches a cell only right
of its centre, or only left of it, is painted there and not found there, and a note
shorter than a cell may be found nowhere. Nothing else can go wrong: it happens in
the first or the last column of a note, never in between.

Rows are counted by a cast that saturates at 32 bits and pitches come round there; a
grid whose highest pitch has 8 bits stays clear of both.
-/

namespace NoteRoll

/-! ## The point of a cell -/

/-- The point of a screen cell, in the part of the roll that an area shows. -/
theorem App.pixelAt_eq_cellCenter {σ : Type} (a : App σ Rat) (area : Area) (col row : Nat) :
    a.pixelAt area (area.x + col) (area.y + row) = (a.viewport area).cellCenter col row := by
  have hcol : (Scalar.ofNat (area.x + col) - Scalar.ofNat area.x : Rat) = Scalar.ofNat col := by
    show (((area.x + col : Nat) : Int) : Rat) - ((area.x : Int) : Rat) = ((col : Int) : Rat)
    push_cast
    ring
  have hrow : (Scalar.ofNat (area.y + row) - Scalar.ofNat area.y : Rat) = Scalar.ofNat row := by
    show (((area.y + row : Nat) : Int) : Rat) - ((area.y : Int) : Rat) = ((row : Int) : Rat)
    push_cast
    ring
  rw [App.pixelAt, hcol, hrow]
  rfl

namespace Grid

variable {grid : Grid Rat} {y : Rat} {pitch : Nat}

theorem floor_of_yToPitch (hhigh : grid.highPitch ≤ 255) (h : (pitch : Int) = grid.yToPitch y) :
    (y / grid.rowHeight).floor = (grid.highPitch : Int) - pitch := by
  rw [yToPitch, rowAt, Scalar.truncateInt32, Scalar.truncate_floor, Pitch.wrap] at h
  omega

theorem yToPitch_of_floor (hhigh : grid.highPitch ≤ 255) (hpitch : pitch ≤ 255)
    (h : (y / grid.rowHeight).floor = (grid.highPitch : Int) - pitch) :
    (pitch : Int) = grid.yToPitch y := by
  rw [yToPitch, rowAt, Scalar.truncateInt32, Scalar.truncate_floor, Pitch.wrap, h]
  omega

theorem pitchToY_eq (grid : Grid Rat) (pitch : Nat) :
    grid.pitchToY pitch = (((grid.highPitch : Int) - pitch : Int) : Rat) * grid.rowHeight := by
  push_cast
  rfl

/-- The row of a pitch holds the pixels from its top one on. -/
theorem pitchToY_le_of_yToPitch (hheight : 0 < grid.rowHeight) (hhigh : grid.highPitch ≤ 255)
    (h : (pitch : Int) = grid.yToPitch y) :
    grid.pitchToY pitch ≤ y ∧ y < grid.pitchToY pitch + grid.rowHeight := by
  have hfloor := floor_of_yToPitch hhigh h
  have hle := Rat.floor_le (y / grid.rowHeight)
  have hlt := Rat.lt_floor_add_one (y / grid.rowHeight)
  rw [hfloor] at hle hlt
  rw [le_div_iff₀ hheight] at hle
  rw [div_lt_iff₀ hheight] at hlt
  rw [pitchToY_eq]
  push_cast at hle hlt ⊢
  exact ⟨hle, by linarith⟩

/-- It holds no others. This goes for the rows outside of the window too. -/
theorem yToPitch_of_pitchToY_le (hheight : 0 < grid.rowHeight) (hhigh : grid.highPitch ≤ 255)
    (hpitch : pitch ≤ 255) (htop : grid.pitchToY pitch ≤ y)
    (hbottom : y < grid.pitchToY pitch + grid.rowHeight) : (pitch : Int) = grid.yToPitch y := by
  rw [pitchToY_eq] at htop hbottom
  refine yToPitch_of_floor hhigh hpitch (le_antisymm ?_ ?_)
  · rw [← Int.lt_add_one_iff, Rat.floor_lt_iff, div_lt_iff₀ hheight]
    push_cast at hbottom ⊢
    linarith
  · rw [Rat.le_floor_iff, le_div_iff₀ hheight]
    exact htop

/-- Where rows are one pixel high, a row of cells that a pitch touches is its own. -/
theorem yToPitch_of_spans {row : Nat} (hheight : grid.rowHeight = 1)
    (hhigh : grid.highPitch ≤ 255)
    (h : Roll.Spans (grid.pitchToY pitch) (grid.pitchToY pitch + grid.rowHeight) row) :
    (pitch : Int) = grid.yToPitch (row + 1 / 2) := by
  have htop : grid.pitchToY pitch = (((grid.highPitch : Int) - pitch : Int) : Rat) := by
    rw [pitchToY_eq, hheight, mul_one]
  rw [htop, hheight] at h
  obtain ⟨hfirst, hlast⟩ := h
  -- At a height of one pixel both edges of the row are whole, so rounding cannot add another.
  have hrow : (grid.highPitch : Int) - pitch = row := by
    have hge : (grid.highPitch : Int) - pitch < row + 1 := by exact_mod_cast hfirst
    have hle : (row : Int) < (grid.highPitch : Int) - pitch + 1 := by
      rcases hlast with hlast | hlast
      · exact_mod_cast hlast
      · have hself : (row : Int) ≤ (grid.highPitch : Int) - pitch := by exact_mod_cast hlast
        omega
    omega
  refine yToPitch_of_pitchToY_le (hheight ▸ one_pos) hhigh (by omega) ?_ ?_
  · rw [htop, hrow, Int.cast_natCast]
    linarith
  · rw [htop, hrow, hheight, Int.cast_natCast]
    linarith

end Grid

namespace GestureEditor

variable {e : GestureEditor Rat} {session : Session Rat} {view : Viewport Rat}
  {overlay : Overlay Rat} {row col : Nat} {p : Point Rat} {n : Note Rat}

/-! ## From the pointer to the screen -/

/-- The pointer is on a note: in its row, and neither before it nor behind it. -/
def Finds (e : GestureEditor Rat) (p : Point Rat) (n : Note Rat) : Prop :=
  (n.pitch : Int) = e.grid.yToPitch p.y ∧ e.grid.beatToX n.start ≤ p.x ∧ p.x ≤ e.grid.beatToX n.stop

/-- What a press grabs is the last of the notes that the pointer is on. -/
theorem finds_iff (hwidth : 0 < e.grid.beatWidth) :
    ((n.pitch : Int) == e.grid.yToPitch p.y && decide (n.start ≤ e.grid.xToBeat p.x) &&
      decide (e.grid.xToBeat p.x ≤ n.stop)) = true ↔ e.Finds p n := by
  have hstart : n.start ≤ e.grid.xToBeat p.x ↔ e.grid.beatToX n.start ≤ p.x :=
    le_div_iff₀ hwidth
  have hstop : e.grid.xToBeat p.x ≤ n.stop ↔ p.x ≤ e.grid.beatToX n.stop :=
    div_le_iff₀ hwidth
  rw [Finds, ← hstart, ← hstop]
  simp [and_assoc]

theorem finds_of_hitTest? (hwidth : 0 < e.grid.beatWidth)
    (h : e.hitTest? session p = some n) : n ∈ session.editableNotes ∧ e.Finds p n := by
  have hmem := List.mem_of_getLast? h
  rw [List.mem_filter, finds_iff hwidth] at hmem
  exact hmem

theorem hitTest?_eq_none_iff (hwidth : 0 < e.grid.beatWidth) :
    e.hitTest? session p = none ↔ ∀ n ∈ session.editableNotes, ¬ e.Finds p n := by
  simp only [hitTest?, List.getLast?_eq_none_iff, List.filter_eq_nil_iff]
  simp only [finds_iff hwidth]

/-- A note that the pointer finds at the centre of a cell is painted in the cell. -/
theorem Finds.covers (hheight : 0 < e.grid.rowHeight) (hhigh : e.grid.highPitch ≤ 255)
    (hrow : row < 65535) (hcol : col < 65535) (h : e.Finds (view.cellCenter col row) n) :
    (Roll.noteBlock e.grid view n).covers row col = true := by
  rw [Viewport.cellCenter_eq] at h
  obtain ⟨hpitch, hstart, hstop⟩ := h
  obtain ⟨htop, hbottom⟩ := Grid.pitchToY_le_of_yToPitch hheight hhigh hpitch
  dsimp only at hstart hstop htop hbottom
  rw [Roll.noteBlock_covers_iff (by omega) (by omega)]
  simp only [Roll.Spans, Roll.pixels]
  exact ⟨⟨by linarith, .inl (by linarith)⟩, by linarith, .inl (by linarith)⟩

theorem mem_visibleNotes_of_editable (h : n ∈ session.editableNotes) :
    n ∈ session.visibleNotes := (List.mem_filter.1 h).1

/-- A cell that a visible note covers shows a visible note. -/
theorem cell_of_covers (hghosts : overlay.ghosts = []) (hreplaced : overlay.replaced = [])
    (hrow : row < view.rows) (hcol : col < view.cols) (hn : n ∈ session.visibleNotes)
    (hcovers : (Roll.noteBlock e.grid view n).covers row col = true) :
    ∃ m ∈ session.visibleNotes, (Roll.noteBlock e.grid view m).covers row col = true ∧
      Roll.cellAt? (Roll.project session e.grid view overlay) row col =
        some (Roll.noteCell session m) := by
  have hshown : Roll.shownNotes session overlay = session.visibleNotes := by
    simp [Roll.shownNotes, hreplaced]
  have hsome : n ∈ (Roll.shownNotes session overlay).filter fun n =>
      (Roll.noteBlock e.grid view n).covers row col := by
    rw [List.mem_filter, hshown]
    exact ⟨hn, hcovers⟩
  obtain ⟨m, hlast⟩ := Option.ne_none_iff_exists'.1
    (mt List.getLast?_eq_none_iff.1 (List.ne_nil_of_mem hsome))
  have hm := List.mem_of_getLast? hlast
  rw [List.mem_filter, hshown] at hm
  refine ⟨m, hm.1, hm.2, Roll.cellAt?_project hrow hcol ?_ hlast⟩
  simp [hghosts]

/-- Whatever the scale, the scroll position and the playhead: if a press at the centre of
a cell would grab a note, then the cell shows a note. -/
theorem grabbed_is_shown (hwidth : 0 < e.grid.beatWidth) (hheight : 0 < e.grid.rowHeight)
    (hhigh : e.grid.highPitch ≤ 255) (hcols : view.cols ≤ 65535) (hrows : view.rows ≤ 65535)
    (hghosts : overlay.ghosts = []) (hreplaced : overlay.replaced = [])
    (hrow : row < view.rows) (hcol : col < view.cols)
    (h : e.hitTest? session (view.cellCenter col row) = some n) :
    (Roll.noteBlock e.grid view n).covers row col = true ∧
    ∃ track selected, Roll.cellAt? (Roll.project session e.grid view overlay) row col =
      some (.note track selected) := by
  obtain ⟨heditable, hfinds⟩ := finds_of_hitTest? hwidth h
  have hcovers := hfinds.covers hheight hhigh (hrow.trans_le hrows) (hcol.trans_le hcols)
  obtain ⟨m, -, -, hcell⟩ := cell_of_covers hghosts hreplaced hrow hcol
    (mem_visibleNotes_of_editable heditable) hcovers
  exact ⟨hcovers, _, _, hcell⟩

/-- A session of one note that begins a fraction of a beat after its bar. -/
def soloSession (start duration : Rat) : Session Rat :=
  .start ((Document.empty Track.defaults 120).replaceNotes
    [.ofFields 1 65 start duration 90 "t_piano"])

/-- Rows of a pixel and a half, scrolled by a third of one, with the playhead in the note. -/
theorem soloSession_grabbed :
    let e : GestureEditor Rat := .ofGrid (.ofRange (7 / 2) (3 / 2) 60 71) 6
    let view : Viewport Rat := ⟨1 / 3, 8, 16⟩
    let overlay : Overlay Rat := ⟨[], [], some ⟨0, 0, 9, 12⟩, some (3 / 4)⟩
    (e.hitTest? (soloSession (1 / 2) 1) (view.cellCenter 2 9)).isSome = true ∧
    ∃ track selected, Roll.cellAt? (Roll.project (soloSession (1 / 2) 1) e.grid view overlay) 9 2 =
      some (.note track selected) := by
  intro e view overlay
  have hhit : (e.hitTest? (soloSession (1 / 2) 1) (view.cellCenter 2 9)).isSome = true := by
    decide +kernel
  obtain ⟨n, hn⟩ := Option.isSome_iff_exists.1 hhit
  exact ⟨hhit, (grabbed_is_shown (by decide +kernel) (by decide +kernel) (by decide)
    (by decide) (by decide) rfl rfl (by decide) (by decide) hn).2⟩

/-! ## From the screen to the pointer -/

/-- In a cell that a note covers, the pointer misses the note only sideways. -/
theorem finds_iff_of_covers (hheight : e.grid.rowHeight = 1) (hhigh : e.grid.highPitch ≤ 255)
    (hrow : row < 65535) (hcol : col < 65535)
    (hcovers : (Roll.noteBlock e.grid view n).covers row col = true) :
    e.Finds (view.cellCenter col row) n ↔
      e.grid.beatToX n.start ≤ (view.cellCenter col row).x ∧
      (view.cellCenter col row).x ≤ e.grid.beatToX n.stop := by
  rw [Roll.noteBlock_covers_iff (by omega) (by omega)] at hcovers
  have hpitch : (n.pitch : Int) = e.grid.yToPitch (view.cellCenter col row).y := by
    rw [Viewport.cellCenter_eq]
    exact Grid.yToPitch_of_spans hheight hhigh hcovers.1
  simp [Finds, hpitch]

/-- The notes that can be found in a cell are among those that cover it. -/
theorem hitTest?_eq_none_iff_cut (hwidth : 0 < e.grid.beatWidth) (hheight : e.grid.rowHeight = 1)
    (hhigh : e.grid.highPitch ≤ 255) (hrow : row < 65535) (hcol : col < 65535) :
    e.hitTest? session (view.cellCenter col row) = none ↔
      ∀ n ∈ session.editableNotes, (Roll.noteBlock e.grid view n).covers row col = true →
        (view.cellCenter col row).x < e.grid.beatToX n.start ∨
        e.grid.beatToX n.stop < (view.cellCenter col row).x := by
  rw [hitTest?_eq_none_iff hwidth]
  refine forall₂_congr fun n _ => ⟨fun hnot hcovers => ?_, fun hcut hfinds => ?_⟩
  · rw [finds_iff_of_covers hheight hhigh hrow hcol hcovers] at hnot
    rcases lt_or_ge (view.cellCenter col row).x (e.grid.beatToX n.start) with hleft | hleft
    · exact .inl hleft
    · exact .inr (lt_of_not_ge fun hright => hnot ⟨hleft, hright⟩)
  · have hpos : 0 < e.grid.rowHeight := by rw [hheight]; exact one_pos
    have hstart := hfinds.2.1
    have hstop := hfinds.2.2
    rcases hcut (hfinds.covers hpos hhigh hrow hcol) with hleft | hright
    · exact absurd hstart (not_le_of_gt hleft)
    · exact absurd hstop (not_le_of_gt hright)

/-- With the pen an idle editor begins a note just where it finds none. -/
theorem draws_iff_hitTest?_eq_none (hidle : e.isIdle = true) (htool : session.tool = .draw) :
    (∃ anchor note, (e.pointerDown session p .primary).editor.gesture = .drawing anchor note) ↔
      e.hitTest? session p = none := by
  rw [pointerDown, if_pos hidle]
  cases hhit : e.hitTest? session p with
  | none => simp [pressEmpty, htool, beginDraw]
  | some n =>
      have hpen : ¬ ((PointerButton.primary == .secondary) || (session.tool == .erase)) = true := by
        rw [htool]
        decide
      simp only [pressNote, if_neg hpen]
      split <;> simp [beginResize, beginMove]

/-- In a cell that notes of the active track cover a note is shown, whatever the scroll
position. A press at its centre finds none of them just if each of them begins right of
the centre or ends left of it; then the cell is the first or the last one of the note.
With the pen that is where a press begins another note. -/
theorem missed_iff_cut (hwidth : 0 < e.grid.beatWidth) (hheight : e.grid.rowHeight = 1)
    (hhigh : e.grid.highPitch ≤ 255) (hcols : view.cols ≤ 65535) (hrows : view.rows ≤ 65535)
    (hghosts : overlay.ghosts = []) (hreplaced : overlay.replaced = [])
    (hrow : row < view.rows) (hcol : col < view.cols)
    (hcovered : ∃ n ∈ session.editableNotes,
      (Roll.noteBlock e.grid view n).covers row col = true) :
    let p := view.cellCenter col row
    let covering := session.editableNotes.filter fun n =>
      (Roll.noteBlock e.grid view n).covers row col
    (∃ track selected, Roll.cellAt? (Roll.project session e.grid view overlay) row col =
      some (.note track selected)) ∧
    (e.hitTest? session p = none ↔
      ∀ n ∈ covering, p.x < e.grid.beatToX n.start ∨ e.grid.beatToX n.stop < p.x) ∧
    (∀ n ∈ covering,
      (p.x < e.grid.beatToX n.start → (Roll.noteBlock e.grid view n).col0 = col) ∧
      (e.grid.beatToX n.stop < p.x → (Roll.noteBlock e.grid view n).col1 = col + 1)) ∧
    (e.isIdle = true → session.tool = .draw →
      ((∃ anchor note,
          (e.pointerDown session p .primary).editor.gesture = .drawing anchor note) ↔
        e.hitTest? session p = none)) := by
  intro p covering
  have hrow' : row < 65535 := hrow.trans_le hrows
  have hcol' : col < 65535 := hcol.trans_le hcols
  refine ⟨?_, ?_, fun n hn => ?_, draws_iff_hitTest?_eq_none⟩
  · obtain ⟨n, hn, hcovers⟩ := hcovered
    obtain ⟨m, -, -, hcell⟩ := cell_of_covers hghosts hreplaced hrow hcol
      (mem_visibleNotes_of_editable hn) hcovers
    exact ⟨_, _, hcell⟩
  · rw [hitTest?_eq_none_iff_cut hwidth hheight hhigh hrow' hcol']
    simp only [covering, List.mem_filter, and_imp]
    rfl
  · have hcovers := (List.mem_filter.1 hn).2
    exact ⟨Roll.col0_of_cut hrow' hcol' hcovers, Roll.col1_of_cut hrow' hcol' hcovers⟩

/-- The note lies in two cells and is found in the first one only: its end is left of the
centre of the second. -/
theorem soloSession_cut :
    let e : GestureEditor Rat := .ofGrid (.ofRange 4 1 60 71) 6
    let view : Viewport Rat := ⟨1 / 8, 8, 12⟩
    let session := soloSession (1 / 16) (1 / 4)
    (e.hitTest? session (view.cellCenter 0 6)).isSome = true ∧
    e.hitTest? session (view.cellCenter 1 6) = none ∧
    ∃ anchor note, (e.pointerDown session (view.cellCenter 1 6) .primary).editor.gesture =
      .drawing anchor note := by
  intro e view session
  have hcovered : ∃ n ∈ session.editableNotes,
      (Roll.noteBlock e.grid view n).covers 6 1 = true := by decide +kernel
  have hghosts : (⟨[], [], none, some 0⟩ : Overlay Rat).ghosts = [] := rfl
  obtain ⟨-, hmissed, -, hdraws⟩ := missed_iff_cut (by decide +kernel) (by decide +kernel)
    (by decide) (by decide) (by decide) hghosts rfl (by decide) (by decide) hcovered
  have hnone : e.hitTest? session (view.cellCenter 1 6) = none :=
    hmissed.2 (by decide +kernel)
  exact ⟨by decide +kernel, hnone, (hdraws rfl rfl).2 hnone⟩

/-- A note of half a cell's length, astride of two cells: both show it, it is found in
neither, and a press in the first one begins a note that overlaps it. -/
theorem sliver_missed :
    let e : GestureEditor Rat := .ofGrid (.ofRange 4 1 60 71) 6
    let view : Viewport Rat := ⟨0, 4, 12⟩
    let session := soloSession (5 / 32) (1 / 8)
    let cells := Roll.project session e.grid view ⟨[], [], none, none⟩
    let pressed := e.pointerDown session (view.cellCenter 0 6) .primary
    (Roll.cellAt? cells 6 0 = some (.note 0 false) ∧ Roll.cellAt? cells 6 1 = some (.note 0 false)) ∧
    (∃ n ∈ session.editableNotes, (Roll.noteBlock e.grid view n).covers 6 0 = true) ∧
    (e.hitTest? session (view.cellCenter 0 6)).isNone = true ∧
    (e.hitTest? session (view.cellCenter 1 6)).isNone = true ∧
    pressed.outcome = .started ∧
    ∃ drawn ∈ pressed.editor.ghosts session, ∃ n ∈ session.editableNotes,
      drawn.track = n.track ∧ drawn.pitch = n.pitch ∧
      drawn.start < n.stop ∧ n.start < drawn.stop := by
  decide +kernel

end GestureEditor

end NoteRoll
