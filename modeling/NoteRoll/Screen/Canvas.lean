import NoteRoll.Screen.Layout
import NoteRoll.Screen.Style
import NoteRoll.Text.Cluster
import NoteRoll.Text.Width

/-!
# The canvas

A screen full of cells that styled text is written onto, cluster by cluster. A cluster stands in its
first cell, and the other cells that it takes are cleared. Text that is longer than its area is cut
off, and what a style does not give stays as it is.
-/

namespace NoteRoll

/-- A cell of the screen. -/
structure ScreenCell where
  symbol : String := " "
  fg : Color := .reset
  bg : Color := .reset
  bold : Bool := false
  deriving DecidableEq, Repr

namespace ScreenCell

/-- The cell in another style. -/
def restyle (c : ScreenCell) (s : Style) : ScreenCell :=
  { c with fg := s.fg.getD c.fg, bg := s.bg.getD c.bg, bold := s.bold || c.bold }

end ScreenCell

/-- Rows of screen cells. -/
structure Canvas where
  rows : Array (Array ScreenCell)

namespace Canvas

/-- A blank canvas. -/
def blank (width height : Nat) : Canvas := ⟨Array.replicate height (Array.replicate width {})⟩

/-- Changes one cell, if there is one at the place. -/
def modify (c : Canvas) (x y : Nat) (f : ScreenCell → ScreenCell) : Canvas :=
  ⟨c.rows.modify y fun row => row.modify x f⟩

/-- Lays a style over an area. -/
def restyle (c : Canvas) (a : Area) (s : Style) : Canvas :=
  (List.range a.height).foldl (fun c i =>
    (List.range a.width).foldl (fun c j => c.modify (a.x + j) (a.y + i) (·.restyle s)) c) c

/-- Number of cells that a cluster takes. The sound marks of half width in it count twice. -/
def clusterCells (cluster : List Char) : Nat :=
  textWidth cluster + cluster.countP isHalfWidthMark

/-- The clusters of a text that are shown: those without a control character. -/
def shownClusters (text : String) : List (List Char) :=
  (clusters text.toList).filter fun cluster => !cluster.any isControl

/-- Clears as many cells as there are behind the first of a cluster. -/
def clearBehind (c : Canvas) (x y cells : Nat) : Canvas :=
  (List.range (cells - 1)).foldl (fun c i => c.modify (x + 1 + i) y fun _ => {}) c

/-- Puts a cluster into a cell. -/
def put (c : Canvas) (x y : Nat) (cluster : List Char) (s : Style) : Canvas :=
  c.modify x y fun cell => { cell with symbol := String.ofList cluster }.restyle s

/-- Puts a cluster behind what a cell holds. -/
def append (c : Canvas) (x y : Nat) (cluster : List Char) (s : Style) : Canvas :=
  c.modify x y fun cell => { cell with symbol := cell.symbol ++ String.ofList cluster }.restyle s

/-- Writes clusters from a place on, up to the first that there is no room for. Those that take no
cell, or more than the whole width, are left out. -/
def writeClusters (c : Canvas) (x y width : Nat) : (room : Nat) → List (List Char × Style) → Canvas
  | _, [] => c
  | room, (cluster, style) :: rest =>
    let cells := clusterCells cluster
    if cells = 0 || width < cells then c.writeClusters x y width room rest
    else if room < cells then c
    else ((c.put x y cluster style).clearBehind x y cells).writeClusters (x + cells) y width
      (room - cells) rest

/-- Writes styled text from a place on, as much as there is room for. -/
def writeLine (c : Canvas) (x y width : Nat) (line : Line) : Canvas :=
  c.writeClusters x y width width
    (line.flatMap fun span => (shownClusters span.text).map fun cluster => (cluster, span.style))

/-- Writes lines into an area, from its top. -/
def writeLines (c : Canvas) (a : Area) (lines : List Line) : Canvas :=
  (lines.take a.height).zipIdx.foldl (fun c l => c.writeLine a.x (a.y + l.2) a.width l.1) c

/-- Writes the clusters of an entry's span that come behind its first one. Those that take no cell are
put behind the one before them, and so is all that follows until a cell is taken. -/
def writeFurther (c : Canvas) (start x y : Nat) (style : Style) :
    (room : Nat) → List (List Char) → Canvas
  | _, [] => c
  | room, cluster :: rest =>
    let cells := clusterCells cluster
    if room < cells then c else
      let written :=
        if x = start then c.append x y cluster style
        else if cells = 0 then c.append (x - 1) y cluster style
        else c.put x y cluster style
      (written.clearBehind x y cells).writeFurther start (x + cells) y style (room - cells) rest

/-- Writes a span of an entry of a list. Its first cluster is written even if it takes no cell. -/
def writeSpan (c : Canvas) (x y room : Nat) (span : Span) : Canvas :=
  match shownClusters span.text with
  | [] => c
  | cluster :: rest =>
    let cells := clusterCells cluster
    if room < cells then c else
      ((c.put x y cluster span.style).clearBehind x y cells).writeFurther x (x + cells) y span.style
        (room - cells) rest

/-- Writes an entry of a list from a place on. Every span begins where the whole text of those before
it ends, with what is not shown of it. -/
def writeEntry (c : Canvas) (x y : Nat) : (room : Nat) → Line → Canvas
  | _, [] => c
  | room, span :: rest =>
    let width := textWidth span.text.toList
    if room = 0 then c
    else if width = 0 then c.writeEntry x y room rest
    else (c.writeSpan x y room span).writeEntry (x + width) y (room - width) rest

/-- Writes the entries of a list into an area, from its top. -/
def writeEntries (c : Canvas) (a : Area) (entries : List Line) : Canvas :=
  (entries.take a.height).zipIdx.foldl (fun c l => c.writeEntry a.x (a.y + l.2) a.width l.1) c

/-- The text of a row of cells, without the white space at its end. -/
def rowText (row : Array ScreenCell) : String :=
  let text := row.toList.flatMap (·.symbol.toList)
  String.ofList (text.reverse.dropWhile isWhiteSpace).reverse

end Canvas

end NoteRoll
