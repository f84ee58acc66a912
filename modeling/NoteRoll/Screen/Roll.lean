import NoteRoll.Editor.Gesture
import NoteRoll.Editor.Velocity
import NoteRoll.Padding
import NoteRoll.Screen.Theme

/-!
# The roll on the screen

The document is projected onto a grid of cells, layer by layer: the empty grid with its bar and beat
lines, the notes in document order, the ghosts of the gesture over them, and in the cells that are
still empty the frame of the marquee and then the playhead. A cell is a pixel of the grid. A note is
drawn in every cell that it touches, so what the pointer finds at the centre of a cell is drawn there.

Rows of pitches are counted in 32 bits, cells in 64 and bars in 32, and the program stops where a sum
does not fit. What runs is `project?`, `gutterLines?` and `rulerLabels?`, with a check of each sum.
-/

namespace NoteRoll

/-- A vertical line in an empty cell. -/
inductive GridLine where
  | none
  | beat
  | bar
  deriving DecidableEq, Repr

/-- What a cell of the roll shows. -/
inductive RollCell where
  | empty (blackKey : Bool) (line : GridLine)
  /-- A note, with the position of its track. -/
  | note (track : Nat) (selected : Bool)
  /-- A provisional note. -/
  | ghost
  | playhead
  | marquee
  deriving DecidableEq, Repr

/-- The part of the grid that is on the screen. -/
structure Viewport (α : Type) where
  /-- The grid pixel at the left edge. -/
  scrollX : α
  cols : Nat
  rows : Nat

/-- What a gesture shows on top of the document. -/
structure Overlay (α : Type) where
  ghosts : List (Note α)
  /-- Notes that are not shown while their ghosts are. -/
  replaced : List NoteId
  marquee : Option (Rect α)
  playhead : Option α

namespace Viewport

variable {α : Type} [Scalar α]

/-- The grid pixel at the centre of a cell. -/
def cellCenter (view : Viewport α) (col row : Nat) : Point α :=
  ⟨view.scrollX + Scalar.ofNat col + 0.5, Scalar.ofNat row + 0.5⟩

/-- The column of a grid pixel. -/
def colOf (view : Viewport α) (x : α) : Int := Scalar.truncateInt64 (Scalar.floor (x - view.scrollX))

end Viewport

/-- A block of cells, from the first row and column up to before the last ones. -/
structure CellBlock where
  row0 : Int
  row1 : Int
  col0 : Int
  col1 : Int

namespace CellBlock

/-- Whether a cell is in the block. -/
def covers (b : CellBlock) (row col : Nat) : Bool :=
  decide (b.row0 ≤ (row : Int) ∧ (row : Int) < b.row1 ∧ b.col0 ≤ (col : Int) ∧ (col : Int) < b.col1)

/-- Whether a cell is on the border of the block. -/
def onBorder (b : CellBlock) (row col : Nat) : Bool :=
  b.covers row col && decide ((row : Int) = b.row0 ∨ (row : Int) = b.row1 - 1 ∨
    (col : Int) = b.col0 ∨ (col : Int) = b.col1 - 1)

end CellBlock

namespace Roll

variable {α : Type} [Scalar α]

/-! ## Lines -/

/-- The first beat that is not left of a column. -/
def beatFrom (grid : Grid α) (view : Viewport α) (col : Nat) : α :=
  Scalar.ceil (grid.xToBeat (view.scrollX + Scalar.ofNat col))

/-- The line in a column: there is one if a beat begins in it, and it is a bar's if that beat is a
multiple of four. -/
def gridLine (grid : Grid α) (view : Viewport α) (col : Nat) : GridLine :=
  let left := view.scrollX + Scalar.ofNat col
  let beat := beatFrom grid view col
  if left + 1 ≤ grid.beatToX beat then .none
  else if Scalar.isMultipleOfFour beat then .bar
  else .beat

/-- The number of the bar that begins at a beat, counted from one in 32 bits. -/
def barNumber (beat : α) : Nat := (Scalar.truncateNat32 (beat / Piece.beatsPerBar) + 1) % 4294967296

/-- The columns where bars begin, with the number of each bar. -/
def rulerLabels (grid : Grid α) (view : Viewport α) : List (Nat × Nat) :=
  (List.range view.cols).filterMap fun col =>
    if gridLine grid view col = .bar then some (col, barNumber (beatFrom grid view col)) else none

/-- The number of the bar that begins at a beat, if it is one of 32 bits. -/
def barNumber? (beat : α) : Option Nat :=
  let before := Scalar.truncateNat32 (beat / Piece.beatsPerBar)
  if before < 4294967295 then some (before + 1) else none

/-- The columns where bars begin, with the number of each bar and a check of it. -/
def rulerLabels? (grid : Grid α) (view : Viewport α) : Option (List (Nat × Nat)) :=
  ((List.range view.cols).filter fun col => gridLine grid view col = .bar).mapM fun col =>
    (barNumber? (beatFrom grid view col)).map fun number => (col, number)

/-! ## Layers -/

/-- Rows of cells. -/
abbrev Cells := List (List RollCell)

/-- Whether a pitch is that of a black key. -/
def isBlack (pitch : Int) : Bool := (Pitch.ofInt? pitch).any Pitch.isBlackKey

/-- The empty roll. -/
def background (grid : Grid α) (view : Viewport α) : Cells :=
  let lines := (List.range view.cols).map (gridLine grid view)
  (List.range view.rows).map fun row =>
    lines.map (.empty (isBlack (grid.yToPitch (view.cellCenter 0 row).y)))

/-- The empty roll, with a check of the pitch of each row. -/
def background? (grid : Grid α) (view : Viewport α) : Option Cells :=
  let lines := (List.range view.cols).map (gridLine grid view)
  (List.range view.rows).mapM fun row =>
    (grid.yToPitch? (view.cellCenter 0 row).y).map fun pitch => lines.map (.empty (isBlack pitch))

/-- The cells that a note covers; at least one in width and height. -/
def noteBlock (grid : Grid α) (view : Viewport α) (n : Note α) : CellBlock :=
  let y0 := grid.pitchToY n.pitch
  let col0 := Scalar.truncateInt64 (Scalar.floor (grid.beatToX n.start - view.scrollX))
  let col1 := Scalar.truncateInt64 (Scalar.ceil (grid.beatToX n.stop - view.scrollX))
  let row0 := Scalar.truncateInt64 (Scalar.floor y0)
  let row1 := Scalar.truncateInt64 (Scalar.ceil (y0 + grid.rowHeight))
  { row0, row1 := max row1 (row0 + 1), col0, col1 := max col1 (col0 + 1) }

/-- What 64 signed bits hold. -/
def InCells (cell : Int) : Prop := -9223372036854775808 ≤ cell ∧ cell ≤ 9223372036854775807

instance instDecidableInCells (cell : Int) : Decidable (InCells cell) :=
  inferInstanceAs (Decidable (_ ∧ _))

/-- The next cell, if it is one of 64 bits. -/
def nextCell? (cell : Int) : Option Int := if InCells (cell + 1) then some (cell + 1) else none

/-- The cells that a note covers, with a check of both sums. -/
def noteBlock? (grid : Grid α) (view : Viewport α) (n : Note α) : Option CellBlock := do
  let y0 := grid.pitchToY n.pitch
  let col0 := Scalar.truncateInt64 (Scalar.floor (grid.beatToX n.start - view.scrollX))
  let col1 := Scalar.truncateInt64 (Scalar.ceil (grid.beatToX n.stop - view.scrollX))
  let right ← nextCell? col0
  let row0 := Scalar.truncateInt64 (Scalar.floor y0)
  let row1 := Scalar.truncateInt64 (Scalar.ceil (y0 + grid.rowHeight))
  let below ← nextCell? row0
  return { row0, row1 := max row1 below, col0, col1 := max col1 right }

/-- Puts a cell everywhere in a block. -/
def paint (block : CellBlock) (cell : RollCell) (cells : Cells) : Cells :=
  cells.mapIdx fun row line =>
    if block.row0 ≤ (row : Int) ∧ (row : Int) < block.row1 then
      line.mapIdx fun col old => if block.covers row col then cell else old
    else line

/-- Puts a cell where the roll is empty and a condition holds. -/
def fillEmpty (here : Nat → Nat → Bool) (cell : RollCell) (cells : Cells) : Cells :=
  cells.mapIdx fun row line => line.mapIdx fun col old =>
    match old with
    | .empty .. => if here row col then cell else old
    | _ => old

/-- The notes that are shown: those visible and not replaced by ghosts. -/
def shownNotes (session : Session α) (overlay : Overlay α) : List (Note α) :=
  session.visibleNotes.filter fun n => !overlay.replaced.contains n.id

/-- What the cells of a note show. -/
def noteCell (session : Session α) (n : Note α) : RollCell :=
  .note (session.document.trackIndex n.track) (session.selection.contains n.id)

/-- The cells that a marquee spans. -/
def marqueeBlock (view : Viewport α) (r : Rect α) : CellBlock where
  row0 := Scalar.truncateInt64 (Scalar.floor r.y0)
  row1 := Scalar.truncateInt64 (Scalar.floor r.y1) + 1
  col0 := view.colOf r.x0
  col1 := view.colOf r.x1 + 1

/-- Puts the cells of some notes, one over the other. -/
def paintNotes (grid : Grid α) (view : Viewport α) (cell : Note α → RollCell)
    (notes : List (Note α)) (cells : Cells) : Cells :=
  notes.foldl (fun cells n => paint (noteBlock grid view n) (cell n) cells) cells

/-- Puts the cells of some notes, with a check of the sums of each. -/
def paintNotes? (grid : Grid α) (view : Viewport α) (cell : Note α → RollCell)
    (notes : List (Note α)) (cells : Cells) : Option Cells :=
  notes.foldlM (fun cells n => (noteBlock? grid view n).map fun block => paint block (cell n) cells)
    cells

/-- Puts the frame of the marquee and the playhead where the roll is still empty. -/
def putMarks (grid : Grid α) (view : Viewport α) (overlay : Overlay α) (cells : Cells) : Cells :=
  let cells := match overlay.marquee with
    | some r => fillEmpty (marqueeBlock view r).onBorder .marquee cells
    | none => cells
  match overlay.playhead with
  | some beat =>
    let playheadCol := view.colOf (grid.beatToX beat)
    fillEmpty (fun _ col => decide ((col : Int) = playheadCol)) .playhead cells
  | none => cells

/-- The roll as it is shown. -/
def project (session : Session α) (grid : Grid α) (view : Viewport α) (overlay : Overlay α) :
    Cells :=
  let cells := paintNotes grid view (noteCell session) (shownNotes session overlay)
    (background grid view)
  let cells := paintNotes grid view (fun _ => .ghost) overlay.ghosts cells
  putMarks grid view overlay cells

/-- The roll as it is shown, with a check of each sum. -/
def project? (session : Session α) (grid : Grid α) (view : Viewport α) (overlay : Overlay α) :
    Option Cells := do
  let cells ← background? grid view
  let cells ← paintNotes? grid view (noteCell session) (shownNotes session overlay) cells
  let cells ← paintNotes? grid view (fun _ => .ghost) overlay.ghosts cells
  return putMarks grid view overlay cells

/-! ## The velocity lane -/

/-- The stem of a note in the velocity lane. -/
structure Stem where
  velocity : Nat
  track : Nat
  selected : Bool
  deriving DecidableEq, Repr

/-- Puts a note's stem into the column of its centre. -/
def putStem (session : Session α) (grid : Grid α) (view : Viewport α)
    (stems : List (Option Stem)) (n : Note α) : List (Option Stem) :=
  let col := view.colOf (grid.beatToX n.center)
  if col < 0 then stems else
    stems.set col.toNat (some ⟨n.velocity, session.document.trackIndex n.track,
      session.selection.contains n.id⟩)

/-- The stem in each column; of several notes centred in one column it is the last one's. -/
def stems (session : Session α) (grid : Grid α) (view : Viewport α) (overlay : Overlay α) :
    List (Option Stem) :=
  (shownNotes session overlay).foldl (putStem session grid view) (List.replicate view.cols none)

/-! ## Styled lines -/

/-- A cell of the roll as text. -/
def cellSpan (theme : Theme) : RollCell → Span
  | .empty blackKey line =>
    let bg := if blackKey then theme.rowBlack else theme.rowWhite
    match line with
    | .none => ⟨" ", { fg := some theme.beatLine, bg := some bg }⟩
    | .beat => ⟨"┊", { fg := some theme.beatLine, bg := some bg }⟩
    | .bar => ⟨"│", { fg := some theme.barLine, bg := some bg }⟩
  | .note track selected =>
    let color := theme.trackColor track
    if selected then ⟨"█", { fg := some theme.noteSelected, bg := some color, bold := true }⟩
    else ⟨"█", .ofColor color⟩
  | .ghost => ⟨"▒", .ofColor theme.noteGhost⟩
  | .playhead => ⟨"│", .ofColor theme.playhead⟩
  | .marquee => ⟨"·", .ofColor theme.marquee⟩

/-- The roll as text. -/
def lines (cells : Cells) (theme : Theme) : List Line := cells.map fun row => row.map (cellSpan theme)

/-- The piano key of a pitch, if it has one. -/
def keyLine (width : Nat) (theme : Theme) (pitch : Int) : Line :=
  match Pitch.ofInt? pitch with
  | none => []
  | some pitch =>
    let black := Pitch.isBlackKey pitch
    let style : Style := if black then { fg := some theme.keyWhite, bg := some theme.keyBlack }
      else { fg := some .black, bg := some theme.keyWhite }
    let labelled := pitch % Pitch.perOctave == 0 || (!black && decide (4 < width))
    [⟨padRight width (if labelled then Pitch.name pitch else ""), style⟩]

/-- The piano keys left of the roll. -/
def gutterLines (grid : Grid α) (rows width : Nat) (theme : Theme) : List Line :=
  (List.range rows).map fun row => keyLine width theme (grid.yToPitch (Scalar.ofNat row + 0.5))

/-- The piano keys left of the roll, with a check of the pitch of each row. -/
def gutterLines? (grid : Grid α) (rows width : Nat) (theme : Theme) : Option (List Line) :=
  (List.range rows).mapM fun row =>
    (grid.yToPitch? (Scalar.ofNat row + 0.5)).map (keyLine width theme)

/-- A cell of the velocity lane at a level above its base line. -/
def stemSpan (lane : VelocityLane α) (theme : Theme) (level : α) (stem : Option Stem) : Span :=
  match stem with
  | none => ⟨" ", {}⟩
  | some s =>
    let top := Scalar.ceil (lane.stemHeight s.velocity)
    if level ≤ top then
      ⟨if top == level then "▪" else "│",
        .ofColor (if s.selected then theme.noteSelected else theme.trackColor s.track)⟩
    else ⟨" ", {}⟩

/-- The velocity lane as text, with stems rising from the bottom. -/
def laneLines (stems : List (Option Stem)) (lane : VelocityLane α) (rows : Nat) (theme : Theme) :
    List Line :=
  (List.range rows).map fun row => stems.map (stemSpan lane theme (Scalar.ofNat (rows - row)))

end Roll

end NoteRoll
