import NoteRoll.Compose
import NoteRoll.History
import NoteRoll.Piece
import NoteRoll.Selection
import NoteRoll.Snap

/-!
# Editing sessions

A session is a document with everything that editing it needs: selection, undo history, active and
hidden tracks, snap quantum, tool and clipboard. Each edit of the note list that is to be undone is
one commit. A velocity drag previews in the document without a commit, which is the one way in which
the document and the present snapshot may differ for a while.
-/

namespace NoteRoll

/-- What the pointer does on the grid. -/
inductive Tool where
  | draw
  | select
  | erase
  deriving DecidableEq, Repr

/-- The name a tool is shown under. -/
def Tool.label : Tool → String
  | .draw => "DRAW"
  | .select => "SELECT"
  | .erase => "ERASE"

/-- What the compose service is doing. -/
inductive RemoteStatus where
  | idle
  | generating
  | exporting
  deriving DecidableEq, Repr

/-- The state of an editing session. -/
structure Session (α : Type) where
  document : Document α
  selection : Selection
  history : History (List (Note α))
  /-- The track that is drawn on and whose notes can be grabbed. -/
  activeTrack : TrackId
  /-- Tracks that are neither shown nor heard. -/
  hidden : List TrackId
  snap : α
  tool : Tool
  clipboard : List (Note α)
  remote : RemoteStatus

namespace Session

variable {α : Type} [Scalar α]

/-- The snap quantum of a new session. -/
def defaultSnap : α := 0.25

/-- The length of a freshly drawn note where snapping is off. -/
def freeDrawDuration : α := 0.25

/-- A session on a document, whose notes are the first snapshot. -/
def start (document : Document α) : Session α where
  document
  selection := .empty
  history := .start document.notes
  activeTrack := Track.first document.tracks
  hidden := []
  snap := defaultSnap
  tool := .draw
  clipboard := []
  remote := .idle

/-- The shortest length that a drag gives to a note. -/
def snapUnit (s : Session α) : α := if 0 < s.snap then s.snap else Note.minDuration

/-- The length of a freshly drawn note. -/
def drawDuration (s : Session α) : α := if 0 < s.snap then s.snap else freeDrawDuration

/-! ## Commits -/

/-- Puts notes into the document and drops from the selection what is gone. -/
def showNotes (s : Session α) (notes : List (Note α)) : Session α :=
  let document := s.document.replaceNotes notes
  { s with document, selection := s.selection.prune document }

/-- Replaces the notes as one step of the history. -/
def commitNotes (s : Session α) (notes : List (Note α)) : Session α :=
  { s with history := s.history.commit notes }.showNotes notes

/-- Records the notes as they stand as one step of the history. -/
def commitCurrent (s : Session α) : Session α :=
  { s with
    history := s.history.commit s.document.notes
    selection := s.selection.prune s.document }

/-- Takes back one step, and says whether there was one. -/
def undo (s : Session α) : Bool × Session α :=
  match s.history.undo? with
  | none => (false, s)
  | some history => (true, { s with history }.showNotes history.present)

/-- Takes one undone step again, and says whether there was one. -/
def redo (s : Session α) : Bool × Session α :=
  match s.history.redo? with
  | none => (false, s)
  | some history => (true, { s with history }.showNotes history.present)

/-- Deletes a note, and says whether it was there. -/
def deleteNote (s : Session α) (id : NoteId) : Bool × Session α :=
  if s.document.contains id then
    (true, s.commitNotes (s.document.notes.filter fun n => n.id != id))
  else (false, s)

/-- Deletes the selected notes, and says how many there were. -/
def deleteSelected (s : Session α) : Nat × Session α :=
  if s.selection.isEmpty then (0, s) else
    let notes := s.document.notes.filter fun n => !s.selection.contains n.id
    (s.document.notes.length - notes.length,
      { s.commitNotes notes with selection := .empty })

/-- Copies the selected notes to the clipboard, and says how many they are. -/
def copySelected (s : Session α) : Nat × Session α :=
  let clipboard := s.document.notes.filter fun n => s.selection.contains n.id
  (clipboard.length, { s with clipboard })

/-- The earliest onset of some notes. -/
def earliest (first : Note α) (others : List (Note α)) : α :=
  others.foldl (fun e n => Scalar.smaller e n.start) first.start

/-- A copy of a note moved in time, with an identity of its own. -/
def pasteNote (id : NoteId) (beat origin : α) (n : Note α) : Note α :=
  Note.ofFields id n.pitch (beat + (n.start - origin)) n.duration n.velocity n.track

/-- Pastes the clipboard so that its earliest note begins at a beat. The pasted notes become the
selection. Says how many they are. -/
def pasteAt (s : Session α) (beat : α) : Nat × Session α :=
  match s.clipboard with
  | [] => (0, s)
  | first :: others =>
    let origin := earliest first others
    let pasted := s.clipboard.mapIdx fun i n => pasteNote (s.document.nextId + i) beat origin n
    let document := { s.document with nextId := s.document.nextId + pasted.length }
    let s := { s with document }.commitNotes (s.document.notes ++ pasted)
    (pasted.length, { s with selection := .ofList (pasted.map (·.id)) })

/-! ## Exchange of pieces -/

/-- Takes over the tracks of a piece: the first one becomes active, and what is hidden stays hidden
if it is still there. -/
def takeTracks (s : Session α) (tracks : List Track) : Session α :=
  if tracks.isEmpty then s else
    { s with
      document := s.document.setTracks tracks
      activeTrack := Track.first tracks
      hidden := s.hidden.filter fun id => tracks.any fun t => t.id == id }

/-- Takes over a piece: its tempo, its tracks if it has any, and its notes as one step of the
history. Says how many notes there are. -/
def applyPiece (s : Session α) (p : Piece α) : Nat × Session α :=
  let s := { s with document := (s.document.setBpm p.bpm).2 }.takeTracks p.tracks
  let notes := p.flatten s.document.nextId
  let document := { s.document with nextId := s.document.nextId + notes.length }
  (notes.length, { { s with document }.commitNotes notes with selection := .empty })

/-- Takes over a piece if there is one. -/
def applyResult {ε : Type} (s : Session α) (r : Except ε (Piece α)) : Except ε Nat × Session α :=
  match r with
  | .error e => (.error e, s)
  | .ok p =>
    let (count, s) := s.applyPiece p
    (.ok count, s)

/-- The piece that the session holds. -/
def toPiece (s : Session α) : Piece α := Piece.ofDocument s.document

section Text

variable [NumberText α]

/-- Takes over a stored piece; nothing changes if it is rejected. -/
def importText (s : Session α) (text : String) : Except (ImportError α) Nat × Session α :=
  s.applyResult (Piece.ofText text)

/-- The stored form of the session's piece. -/
def exportText (s : Session α) : String := s.toPiece.toText

end Text

/-- Asks a service for a piece and takes it over; nothing changes if there is none. -/
def generate (s : Session α) (service : ComposeService α) (prompt : String) :
    Except (ComposeError α) Nat × Session α :=
  let answer := service.generate prompt
  { s with remote := .idle }.applyResult answer

/-- Has a service turn the session's piece into a MIDI file. -/
def exportMidi (s : Session α) (service : ComposeService α) :
    Except (ComposeError α) (List Nat) × Session α :=
  (service.renderMidi s.toPiece, { s with remote := .idle })

/-! ## Tracks and settings -/

/-- Makes a track the active one, and says whether it exists. -/
def setActiveTrack (s : Session α) (id : TrackId) : Bool × Session α :=
  if (s.document.track? id).isSome then (true, { s with activeTrack := id }) else (false, s)

/-- Makes the next track in the list the active one, the first after the last. -/
def cycleActiveTrack (s : Session α) : Session α :=
  let tracks := s.document.tracks
  let next := match Track.position? tracks s.activeTrack with
    | some i => (i + 1) % tracks.length
    | none => 0
  match tracks[next]? with
  | some t => { s with activeTrack := t.id }
  | none => s

/-- Mutes or unmutes a track, and says whether it is muted now. -/
def toggleMute (s : Session α) (id : TrackId) : Option Bool × Session α :=
  match s.document.track? id with
  | none => (none, s)
  | some t => (some !t.muted, { s with document := s.document.setMuted id !t.muted })

/-- Whether a track is hidden. -/
def isHidden (s : Session α) (id : TrackId) : Bool := s.hidden.contains id

/-- Hides or shows a track, and says whether it is hidden now. -/
def toggleHidden (s : Session α) (id : TrackId) : Option Bool × Session α :=
  match s.document.track? id with
  | none => (none, s)
  | some _ =>
    if s.isHidden id then (some false, { s with hidden := s.hidden.filter fun t => t != id })
    else (some true, { s with hidden := id :: s.hidden })

/-- Whether a note is heard: its track exists and is neither muted nor hidden. -/
def isAudible (s : Session α) (n : Note α) : Bool :=
  !s.isHidden n.track && (s.document.track? n.track).any fun t => !t.muted

/-- The notes on tracks that are not hidden. -/
def visibleNotes (s : Session α) : List (Note α) :=
  s.document.notes.filter fun n => !s.isHidden n.track

/-- The notes that can be grabbed: visible ones on the active track. -/
def editableNotes (s : Session α) : List (Note α) :=
  s.visibleNotes.filter fun n => n.track == s.activeTrack

/-- Sets the tempo from a control, within the range of these. -/
def setBpm (s : Session α) (bpm : α) : Session α :=
  { s with document := (s.document.setBpm (Tempo.intoRange bpm)).2 }

/-- Sets the snap quantum; what is negative or not finite turns snapping off. -/
def setSnap (s : Session α) (quantum : α) : Session α :=
  { s with snap := if Scalar.isFinite quantum then Scalar.larger quantum 0 else 0 }

/-- Sets the tool. -/
def setTool (s : Session α) (tool : Tool) : Session α := { s with tool }

end Session

end NoteRoll
