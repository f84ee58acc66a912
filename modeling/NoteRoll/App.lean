import NoteRoll.App.Action
import NoteRoll.Config
import NoteRoll.Disk
import NoteRoll.MessageLog
import NoteRoll.Screen.Layout
import NoteRoll.Screen.Roll
import NoteRoll.Studio

/-!
# The application

The application turns actions and mouse events into operations of the studio, tells the user what
came of them, and keeps track of which surface the pointer is dragging on. While a drag is in flight
the actions that would replace the notes under it are ignored.

Sums of 32 bits stop the program where they do not fit. What runs is `handleAction?` and `handleMouse?`,
with the checks of the studio.
-/

namespace NoteRoll

/-- A button of the mouse. -/
inductive MouseButton where
  | left
  | right
  | middle
  deriving DecidableEq, Repr

/-- What the mouse does. -/
inductive MouseEvent where
  | down (button : MouseButton)
  | drag
  | up
  /-- The wheel is turned by one notch, up or down, with the shift key held or not. -/
  | wheel (up shift : Bool)
  | other
  deriving DecidableEq, Repr

/-- The surface that the pointer is dragging on. -/
inductive DragTarget where
  | grid
  | lane
  deriving DecidableEq, Repr

/-- The file that was opened, which the piece is written to, among the files there are. -/
structure OpenedFile where
  path : String
  disk : Disk
  deriving DecidableEq, Repr

/-- What the file holds, if it can be read. -/
def OpenedFile.content? (f : OpenedFile) : Option String := (f.disk.read f.path).toOption

/-- The state of the application. -/
structure App (σ α : Type) where
  studio : Studio σ α
  messages : MessageLog
  shouldQuit : Bool
  file : Option OpenedFile
  /-- The beat at the left edge of the roll. -/
  scrollBeat : α
  layout : ScreenLayout
  drag : Option DragTarget

namespace App

variable {σ α : Type} [Scalar α] [SoundOutput σ α]

/-- The pitch in the middle of the screen at the beginning. -/
def initialCenter : Nat := 60

/-- The rows of pitches at the beginning, until the size of the screen is known. -/
def initialRows : Nat := 24

/-- An application on a session. A timing that is not valid is replaced by the standard one. -/
def start (session : Session α) (output : σ) (config : Config α) (file : Option OpenedFile) :
    App σ α :=
  let timing := match config.timing with
    | .ok t => t
    | .error _ => .standard
  let grid := (Grid.ofRange config.grid.beatWidth config.grid.rowHeight 0 0).centerOn
    initialCenter initialRows
  let messages := if SoundOutput.isReady output then MessageLog.standard
    else MessageLog.standard.error "audio unavailable: editing only"
  { studio :=
      { session
        gestures := .ofGrid grid config.grid.edgeMargin
        velocities := .ofLane ⟨Scalar.ofNat ScreenLayout.laneRows, 0⟩
        transport := .ofTiming timing
        output }
    messages
    shouldQuit := false
    file
    scrollBeat := 0
    layout := {}
    drag := none }

/-- Tells the user something. -/
def inform (a : App σ α) (text : String) : App σ α := { a with messages := a.messages.info text }

/-- Tells the user something if it is about more than nothing. -/
def informIf (a : App σ α) (count : Nat) (text : String) : App σ α :=
  if count = 0 then a else a.inform text

/-- The grid of the roll. -/
def grid (a : App σ α) : Grid α := a.studio.gestures.grid

/-- The session that is edited. -/
def session (a : App σ α) : Session α := a.studio.session

/-- Takes over the state of the studio. -/
def withStudio (a : App σ α) (studio : Studio σ α) : App σ α := { a with studio }

/-- Fits the view to a screen. Where the layout stays the same nothing happens; otherwise the
pitches in view are as many as the roll has room for, around the same centre. -/
def resize [Splitter] (a : App σ α) (screen : Area) : App σ α :=
  let layout := ScreenLayout.compute screen
  if layout = a.layout then a else
    let g := a.grid
    let rows := Scalar.truncateNat64
      (Scalar.larger (Scalar.floor (Scalar.ofNat layout.grid.height / g.rowHeight)) 1)
    let studio := a.studio.mapGrid (·.centerOn ((g.lowPitch + g.highPitch) / 2) rows)
    let lane := { studio.velocities.lane with height := Scalar.ofNat layout.lane.height }
    { a with layout, studio := studio.setLane lane }

/-- The part of the roll that is seen in an area. -/
def viewport (a : App σ α) (area : Area) : Viewport α :=
  ⟨a.grid.beatToX a.scrollBeat, area.width, area.height⟩

/-- The grid pixel at the centre of a screen cell, counted from an area; cells outside the area
extend it. -/
def pixelAt (a : App σ α) (area : Area) (col row : Nat) : Point α :=
  ⟨a.grid.beatToX a.scrollBeat + (Scalar.ofNat col - Scalar.ofNat area.x) + 0.5,
    Scalar.ofNat row - Scalar.ofNat area.y + 0.5⟩

/-! ## Actions -/

section Actions

variable [NumberText α]

/-- Writes the piece to the opened file. -/
def write (a : App σ α) : App σ α :=
  match a.file with
  | none =>
    { a with messages := a.messages.error "no file to write: start with `pianoroll edit FILE`" }
  | some file =>
    match file.disk.write file.path a.session.exportText with
    | (.error fault, _) => { a with messages := a.messages.error ("write failed: " ++ fault.message) }
    | (.ok (), disk) => { a with file := some { file with disk } }.inform ("wrote " ++ file.path)

/-- Pastes at the playhead. -/
def paste (a : App σ α) : App σ α :=
  let beat := Snap.snap a.studio.transport.playhead a.session.snap
  let (count, studio) := a.studio.withSession (·.pasteAt beat)
  (a.withStudio studio).informIf count
    ("pasted " ++ toString count ++ " note(s) at beat " ++ NumberText.plain beat)

/-- Tells the user the new state of the active track, if there is one. -/
def informTrack (a : App σ α) (state : Option Bool) (yes no : String) : App σ α :=
  match state with
  | some b => a.inform (a.session.activeTrack ++ " " ++ (if b then yes else no))
  | none => a

/-- Whether an action replaces notes that the pointer may be dragging. -/
def replacesNotes : Action α → Bool
  | .undo | .redo | .deleteSelected | .paste => true
  | _ => false

/-- Carries out an action. -/
def perform (a : App σ α) (action : Action α) : App σ α :=
  match action with
  | .quit => { a with shouldQuit := true }
  | .togglePlayback =>
    a.withStudio (if a.studio.transport.isPlaying then a.studio.stop else a.studio.play none)
  | .rewind => a.withStudio a.studio.rewind
  | .scrollBeats beats => { a with scrollBeat := Scalar.larger (a.scrollBeat + beats) 0 }
  | .scrollPitch semitones => a.withStudio (a.studio.mapGrid (·.scrollPitch semitones))
  | .undo =>
    let (undone, studio) := a.studio.withSession Session.undo
    if undone then a.withStudio studio else a.inform "nothing to undo"
  | .redo =>
    let (redone, studio) := a.studio.withSession Session.redo
    if redone then a.withStudio studio else a.inform "nothing to redo"
  | .deleteSelected =>
    let (count, studio) := a.studio.withSession Session.deleteSelected
    (a.withStudio studio).informIf count ("deleted " ++ toString count ++ " note(s)")
  | .copy =>
    let (count, studio) := a.studio.withSession Session.copySelected
    (a.withStudio studio).inform ("copied " ++ toString count ++ " note(s)")
  | .paste => a.paste
  | .nextTrack => a.withStudio (a.studio.mapSession Session.cycleActiveTrack)
  | .toggleMute =>
    let (state, studio) := a.studio.withSession fun s => s.toggleMute s.activeTrack
    (a.withStudio studio).informTrack state "muted" "unmuted"
  | .toggleHidden =>
    let (state, studio) := a.studio.withSession fun s => s.toggleHidden s.activeTrack
    (a.withStudio studio).informTrack state "hidden" "shown"
  | .setTool tool => a.withStudio (a.studio.mapSession (·.setTool tool))
  | .setSnap quantum =>
    (a.withStudio (a.studio.mapSession (·.setSnap quantum))).inform ("snap " ++ Snap.label quantum)
  | .adjustTempo change =>
    a.withStudio (a.studio.mapSession fun s => s.setBpm (s.document.bpm + change))
  | .write => a.write
  | .cancel => { a with studio := a.studio.gridCancel.laneCancel.2, drag := none }

/-- Carries out an action, unless it would replace notes under a drag. -/
def handleAction (a : App σ α) (action : Action α) : App σ α :=
  if a.drag.isSome && replacesNotes action then a else a.perform action

/-- Carries out an action, with a check of the sum that scrolling takes. -/
def perform? (a : App σ α) (action : Action α) : Option (App σ α) :=
  match action with
  | .scrollPitch semitones => (a.studio.scrollPitch? semitones).map a.withStudio
  | action => some (a.perform action)

/-- Carries out an action unless it would replace notes under a drag, with a check. -/
def handleAction? (a : App σ α) (action : Action α) : Option (App σ α) :=
  if a.drag.isSome && replacesNotes action then some a else a.perform? action

end Actions

/-! ## The mouse -/

/-- What a button of the mouse is on the grid. -/
def pointerOf (button : MouseButton) : PointerButton :=
  if button = .right then PointerButton.secondary else .primary

/-- A button goes down on the roll. -/
def pressGrid (a : App σ α) (button : MouseButton) (col row : Nat) : App σ α :=
  let (outcome, studio) :=
    a.studio.gridDown (a.pixelAt a.layout.grid col row) (pointerOf button)
  let a := a.withStudio studio
  match outcome with
  | .started => { a with drag := some .grid }
  | .deleted id => a.inform ("deleted " ++ NoteId.text id)
  | _ => a

/-- The height of a screen row in the velocity lane. -/
def laneY (a : App σ α) (row : Nat) : α := Scalar.ofNat (row - a.layout.lane.y) + 0.5

/-- A button goes down on the velocity lane. -/
def pressLane (a : App σ α) (col row : Nat) : App σ α :=
  let beat := a.grid.xToBeat (a.pixelAt a.layout.lane col row).x
  let (grabbed, studio) := a.studio.laneDown beat (a.laneY row)
  let a := a.withStudio studio
  if grabbed then { a with drag := some .lane } else a

/-- A button goes down on the ruler. -/
def pressRuler (a : App σ α) (col row : Nat) : App σ α :=
  let beat := a.grid.xToBeat (a.pixelAt a.layout.ruler col row).x
  a.withStudio (a.studio.seek (Snap.snap beat a.session.snap))

/-- A button goes down on the list of tracks, which has one row per track below its border. -/
def pressTracks (a : App σ α) (row : Nat) : App σ α :=
  match a.session.document.tracks[row - (a.layout.tracks.y + 1)]? with
  | some t => a.withStudio (a.studio.mapSession fun s => (s.setActiveTrack t.id).2)
  | none => a

/-- A button goes down. -/
def mouseDown (a : App σ α) (button : MouseButton) (col row : Nat) : App σ α :=
  if a.layout.grid.contains col row then a.pressGrid button col row
  else if a.layout.lane.contains col row && button = .left then a.pressLane col row
  else if a.layout.ruler.contains col row then a.pressRuler col row
  else if a.layout.tracks.contains col row then a.pressTracks row
  else a

/-- The mouse moves with a button down. Leaving the velocity lane ends the drag in it. -/
def mouseDrag (a : App σ α) (col row : Nat) : App σ α :=
  match a.drag with
  | some .grid => a.withStudio (a.studio.gridMove (a.pixelAt a.layout.grid col row)).2
  | some .lane =>
    if a.layout.lane.contains col row then a.withStudio (a.studio.laneMove (a.laneY row)).2
    else { a with studio := a.studio.laneUp.2, drag := none }
  | none => a

/-- A button goes up. -/
def mouseUp (a : App σ α) : App σ α :=
  match a.drag with
  | some .grid =>
    let (outcome, studio) := a.studio.gridUp
    let a := { a with studio, drag := none }
    match outcome with
    | .selected count => a.inform ("selected " ++ toString count ++ " note(s)")
    | _ => a
  | some .lane => { a with studio := a.studio.laneUp.2, drag := none }
  | none => a

/-- A button goes down, with a check where it is on the roll. -/
def mouseDown? (a : App σ α) (button : MouseButton) (col row : Nat) : Option (App σ α) :=
  if a.layout.grid.contains col row then
    (a.studio.gridDown? (a.pixelAt a.layout.grid col row) (pointerOf button)).map fun _ =>
      a.mouseDown button col row
  else some (a.mouseDown button col row)

/-- The mouse moves with a button down, with a check of a drag on the roll. -/
def mouseDrag? (a : App σ α) (col row : Nat) : Option (App σ α) :=
  match a.drag with
  | some .grid =>
    (a.studio.gridMove? (a.pixelAt a.layout.grid col row)).map fun _ => a.mouseDrag col row
  | _ => some (a.mouseDrag col row)

/-- A button goes up, with a check of a drag on the roll. -/
def mouseUp? (a : App σ α) : Option (App σ α) :=
  match a.drag with
  | some .grid => a.studio.gridUp?.map fun _ => a.mouseUp
  | _ => some a.mouseUp

/-- Carries out what the mouse does at a screen cell. -/
def handleMouse [NumberText α] (a : App σ α) (event : MouseEvent) (col row : Nat) : App σ α :=
  match event with
  | .down button => a.mouseDown button col row
  | .drag => a.mouseDrag col row
  | .up => a.mouseUp
  | .wheel true true => a.handleAction (.scrollBeats (-1.0))
  | .wheel false true => a.handleAction (.scrollBeats 1.0)
  | .wheel true false => a.handleAction (.scrollPitch 1)
  | .wheel false false => a.handleAction (.scrollPitch (-1))
  | .other => a

/-- Carries out what the mouse does at a screen cell, with the checks of it. -/
def handleMouse? [NumberText α] (a : App σ α) (event : MouseEvent) (col row : Nat) :
    Option (App σ α) :=
  match event with
  | .down button => a.mouseDown? button col row
  | .drag => a.mouseDrag? col row
  | .up => a.mouseUp?
  | .wheel true true => a.handleAction? (.scrollBeats (-1.0))
  | .wheel false true => a.handleAction? (.scrollBeats 1.0)
  | .wheel true false => a.handleAction? (.scrollPitch 1)
  | .wheel false false => a.handleAction? (.scrollPitch (-1))
  | .other => some a

/-! ## Time -/

/-- Advances playback at a time, and says whether there is something new to see. -/
def tick (a : App σ α) (time : Duration) : Bool × App σ α :=
  let studio := (a.studio.poll time).2
  (!(a.studio.transport.playhead == studio.transport.playhead) ||
    a.studio.transport.isPlaying != studio.transport.isPlaying, a.withStudio studio)

/-- The end of the application, which stops playback. -/
def finish (a : App σ α) : App σ α := a.withStudio a.studio.stop

end App

end NoteRoll
