import NoteRoll.Screen.Style

/-!
# The colours of the screen
-/

namespace NoteRoll

/-- The colours that the parts of the screen are drawn in. -/
structure Theme where
  /-- The colours of tracks, which repeat from the first where there are more tracks. -/
  palette : List Color
  noteSelected : Color
  noteGhost : Color
  rowWhite : Color
  rowBlack : Color
  beatLine : Color
  barLine : Color
  playhead : Color
  marquee : Color
  keyWhite : Color
  keyBlack : Color
  ruler : Color
  trackActive : Color
  trackMuted : Color
  statusFg : Color
  statusBg : Color
  statusAccent : Color
  error : Color
  border : Color
  title : Color

namespace Theme

/-- The colours of a fresh application. -/
def standard : Theme where
  palette := [.cyan, .magenta, .yellow, .green, .blue, .red, .lightCyan, .lightMagenta]
  noteSelected := .white
  noteGhost := .gray
  rowWhite := .reset
  rowBlack := .rgb 24 24 32
  beatLine := .rgb 48 48 56
  barLine := .darkGray
  playhead := .green
  marquee := .yellow
  keyWhite := .white
  keyBlack := .darkGray
  ruler := .cyan
  trackActive := .cyan
  trackMuted := .darkGray
  statusFg := .white
  statusBg := .darkGray
  statusAccent := .cyan
  error := .red
  border := .white
  title := .cyan

/-- The colour of a track by its position. -/
def trackColor (t : Theme) (index : Nat) : Color :=
  t.palette.getD (index % t.palette.length) .reset

end Theme

end NoteRoll
