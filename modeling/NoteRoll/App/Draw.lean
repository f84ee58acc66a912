import NoteRoll.App
import NoteRoll.Screen.Canvas
import NoteRoll.Screen.Status

/-!
# Drawing the application

The parts of the screen, drawn one after the other onto a blank canvas. What runs is `draw?`, with a
check of every sum that a part takes.
-/

namespace NoteRoll.App

variable {σ α : Type} [Scalar α] [SoundOutput σ α]

/-- The colours that are drawn in. -/
def theme : Theme := .standard

/-- What the gesture shows on top of the document, with the playhead. -/
def overlay (a : App σ α) : Overlay α where
  ghosts := a.studio.gestures.ghosts a.session
  replaced := a.studio.gestures.gesture.ghostIds
  marquee := a.studio.gestures.gesture.marqueeRect?
  playhead := some a.studio.transport.playhead

/-- The text of a number put over a row of characters from a column on. -/
def overwrite (row : List Char) (col : Nat) (text : List Char) : List Char :=
  text.zipIdx.foldl (fun row c => row.set (col + c.2) c.1) row

/-- The ruler: the bar numbers, and a mark at the playhead. -/
def rulerLine (a : App σ α) (area : Area) : Line :=
  let view := a.viewport area
  let row := (Roll.rulerLabels a.grid view).foldl
    (fun row l => overwrite row l.1 (toString l.2).toList) (List.replicate area.width ' ')
  let x := a.grid.beatToX a.studio.transport.playhead - view.scrollX
  let row := if 0 ≤ x then row.set (Scalar.truncateNat64 x) '▼' else row
  [⟨String.ofList row, .ofColor theme.ruler⟩]

/-- A row of the list of tracks. -/
def trackLine (a : App σ α) (index : Nat) (t : Track) : Line :=
  let active := t.id == a.session.activeTrack
  let hidden := a.session.isHidden t.id
  let style : Style :=
    if t.muted || hidden then .ofColor theme.trackMuted
    else if active then { fg := some theme.trackActive, bold := true }
    else .ofColor (theme.trackColor index)
  [⟨if active then "▸ " else "  ", {}⟩,
    ⟨padRight 12 t.name, style⟩,
    ⟨padLeft 4 (toString (a.session.document.noteCount t.id)) ++ " " ++
      (if t.muted then "M" else " ") ++ (if hidden then "H" else " "), {}⟩]

/-- The rows of the list of tracks. -/
def trackLines (a : App σ α) : List Line := a.session.document.tracks.mapIdx a.trackLine

/-- Where the rows of the list of tracks are: inside its border on the left and at the top. -/
def trackRowsArea (area : Area) : Area :=
  ⟨area.x + 1, area.y + 1, area.width - 1, area.height - 1⟩

/-- The border of the list of tracks, with its title. -/
def drawTracksBorder (c : Canvas) (area : Area) : Canvas :=
  let border := Style.ofColor theme.border
  let c := c.writeLines area (List.replicate area.height [⟨"│", border⟩])
  let top := String.ofList ('┌' :: List.replicate (area.width - 1) '─')
  let c := c.writeLines { area with height := min 1 area.height } [[⟨top, border⟩]]
  c.writeLines { area with x := area.x + 1, width := area.width - 1, height := min 1 area.height }
    [[⟨" Tracks ", .ofColor theme.title⟩]]

/-- The status line. -/
def statusLine [NumberText α] (a : App σ α) : Line :=
  let s := Status.capture a.session a.studio.transport
  let accent : Style :=
    { fg := some theme.statusAccent, bg := some theme.statusBg, bold := true }
  let plain : Style := { fg := some theme.statusFg, bg := some theme.statusBg }
  [⟨" " ++ s.playback ++ " ", accent⟩,
    ⟨" " ++ s.position ++ " | " ++ NumberText.fixed 0 s.bpm ++ " BPM | " ++ s.tool ++ " | snap " ++
      s.snap ++ " | " ++ s.trackName ++ " | " ++ toString s.noteCount ++ " notes, " ++
      toString s.selected ++ " selected ", plain⟩] ++
  match s.remoteText with
  | some text => [⟨" " ++ text ++ " ", accent⟩]
  | none => []

/-- The keys to begin with, which are told where there is no message. -/
def hint : String := "space play · d/s/e tool · 1-7 snap · u/r undo/redo · w write · q quit"

/-- The message line. -/
def messageLine (a : App σ α) : Line :=
  match a.messages.latest? with
  | some m =>
    [⟨m.text, .ofColor (match m.severity with
      | .info => theme.statusFg
      | .error => theme.error)⟩]
  | none => [⟨hint, .ofColor theme.trackMuted⟩]

/-- Draws the roll, with the ruler above it and the piano keys beside it. -/
def drawRoll (a : App σ α) (c : Canvas) : Canvas :=
  let l := a.layout
  let c := c.writeLines l.ruler [a.rulerLine l.ruler]
  let c := c.writeLines l.grid
    (Roll.lines (Roll.project a.session a.grid (a.viewport l.grid) a.overlay) theme)
  c.writeLines l.gutter (Roll.gutterLines a.grid l.gutter.height l.gutter.width theme)

/-- Draws the list of tracks inside its border. -/
def drawTracks (a : App σ α) (c : Canvas) : Canvas :=
  (drawTracksBorder c a.layout.tracks).writeEntries (trackRowsArea a.layout.tracks) a.trackLines

/-- Draws what is below the roll: the velocity lane, the status line and the message line. -/
def drawFoot [NumberText α] (a : App σ α) (c : Canvas) : Canvas :=
  let l := a.layout
  let c := c.writeLines l.lane
    (Roll.laneLines (Roll.stems a.session a.grid (a.viewport l.lane) a.overlay)
      a.studio.velocities.lane l.lane.height theme)
  let c := (c.restyle l.status { bg := some theme.statusBg }).writeLines l.status [a.statusLine]
  c.writeLines l.messages [a.messageLine]

/-- Draws all parts onto a canvas. -/
def drawParts [NumberText α] (a : App σ α) (c : Canvas) : Canvas :=
  a.drawFoot (a.drawTracks (a.drawRoll c))

/-- Draws all parts onto a canvas, with a check of the sums that each of them takes: those of the
ghosts, the bars on the ruler, the roll, the piano keys and the position in the status line. -/
def drawParts? [NumberText α] (a : App σ α) (c : Canvas) : Option Canvas := do
  let l := a.layout
  let _ ← a.studio.gestures.ghosts? a.session
  let _ ← Roll.rulerLabels? a.grid (a.viewport l.ruler)
  let _ ← Roll.project? a.session a.grid (a.viewport l.grid) a.overlay
  let _ ← Roll.gutterLines? a.grid l.gutter.height l.gutter.width theme
  let _ ← (Status.capture a.session a.studio.transport).position?
  return a.drawParts c

/-- The screen of a size, after the view was fitted to it. -/
def draw [Splitter] [NumberText α] (a : App σ α) (width height : Nat) : Canvas × App σ α :=
  let a := a.resize ⟨0, 0, width, height⟩
  (a.drawParts (.blank width height), a)

/-- The screen of a size, with the checks of its parts. -/
def draw? [Splitter] [NumberText α] (a : App σ α) (width height : Nat) :
    Option (Canvas × App σ α) :=
  let a := a.resize ⟨0, 0, width, height⟩
  (a.drawParts? (.blank width height)).map fun c => (c, a)

end NoteRoll.App
