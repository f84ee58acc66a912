import NoteRoll.Pitch
import NoteRoll.Scalar

/-!
# The note grid

A grid maps beats to horizontal pixels and pitches to vertical ones. Editing and drawing both go
through it, so that they agree on where a beat and a pitch are. The visible pitches form
a window with the highest in the top row; scrolling moves the window and never changes its height.
-/

namespace NoteRoll

/-- The scale of the grid and its window of visible pitches. -/
structure Grid (α : Type) where
  /-- Pixels per beat. -/
  beatWidth : α
  /-- Pixels per row of one pitch. -/
  rowHeight : α
  /-- The lowest visible pitch. -/
  lowPitch : Nat
  /-- The highest visible pitch, in the top row. -/
  highPitch : Nat

namespace Grid

variable {α : Type} [Scalar α]

/-- A grid over a range of pitches, which is cut to the playable ones. -/
def ofRange (beatWidth rowHeight : α) (low high : Nat) : Grid α :=
  let high := min high Pitch.highest
  { beatWidth, rowHeight, lowPitch := min low high, highPitch := high }

/-- The grid of a fresh editor. -/
def standard : Grid α := ofRange 40.0 24.0 24 96

/-- The horizontal pixel of a beat. -/
def beatToX (g : Grid α) (beat : α) : α := beat * g.beatWidth

/-- The beat at a horizontal pixel. -/
def xToBeat (g : Grid α) (x : α) : α := x / g.beatWidth

/-- The top pixel of a pitch's row. -/
def pitchToY (g : Grid α) (pitch : Nat) : α :=
  (Scalar.ofNat g.highPitch - Scalar.ofNat pitch) * g.rowHeight

/-- The row, counted down from the top one, that holds a vertical pixel. -/
def rowAt (g : Grid α) (y : α) : Int := Scalar.truncateInt32 (Scalar.floor (y / g.rowHeight))

/-- The pitch whose row holds a vertical pixel; off the grid it may be no visible pitch at all. -/
def yToPitch (g : Grid α) (y : α) : Int := Pitch.wrap (g.highPitch - g.rowAt y)

/-- The pitch whose row holds a vertical pixel, with a check of the difference. -/
def yToPitch? (g : Grid α) (y : α) : Option Int := Pitch.checked? (g.highPitch - g.rowAt y)

/-- The visible pitch nearest to any number. -/
def clampPitch (g : Grid α) (pitch : Int) : Nat :=
  (max (g.lowPitch : Int) (min (g.highPitch : Int) pitch)).toNat

/-- Number of visible pitches. -/
def rows (g : Grid α) : Nat := g.highPitch - g.lowPitch + 1

/-- The window of a given span whose highest pitch is as close as possible to the wanted one. -/
def withTop (g : Grid α) (span : Nat) (top : Int) : Grid α :=
  let high := max (span : Int) (min (Pitch.highest : Int) top)
  { g with highPitch := high.toNat, lowPitch := (high - span).toNat }

/-- Moves the window by some semitones, as far as the playable range allows. -/
def scrollPitch (g : Grid α) (semitones : Int) : Grid α :=
  g.withTop (g.highPitch - g.lowPitch) (Pitch.wrap (g.highPitch + semitones))

/-- Moves the window, with a check of the sum. -/
def scrollPitch? (g : Grid α) (semitones : Int) : Option (Grid α) := do
  let top ← Pitch.checked? (g.highPitch + semitones)
  return g.withTop (g.highPitch - g.lowPitch) top

/-- Shows a number of rows around a pitch. -/
def centerOn (g : Grid α) (center rows : Nat) : Grid α :=
  let span := min (rows - 1) Pitch.highest
  g.withTop span ((center + span / 2 : Nat) : Int)

end Grid

end NoteRoll
