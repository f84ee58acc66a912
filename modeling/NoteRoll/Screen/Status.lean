import NoteRoll.Playback.Transport

/-!
# The status of an editing session

What the status line tells, and how the playhead is told: by bar and beat, both counted from one.
-/

namespace NoteRoll

/-- What there is to tell about a session and its playback. -/
structure Status (α : Type) where
  bpm : α
  playhead : α
  isPlaying : Bool
  tool : String
  snap : String
  trackName : String
  noteCount : Nat
  selected : Nat
  canUndo : Bool
  canRedo : Bool
  remote : RemoteStatus

namespace Status

variable {α : Type} [Scalar α]

/-- The status of a session and a transport. -/
def capture (session : Session α) (transport : Transport α) : Status α where
  bpm := session.document.bpm
  playhead := transport.playhead
  isPlaying := transport.isPlaying
  tool := session.tool.label
  snap := Snap.label session.snap
  trackName :=
    match session.document.track? session.activeTrack with
    | some t => t.name
    | none => session.activeTrack
  noteCount := session.document.notes.length
  selected := session.selection.size
  canUndo := session.history.canUndo
  canRedo := session.history.canRedo
  remote := session.remote

/-- The number, counted from one in 64 bits, of what has so many whole ones before it. -/
def ordinal (before : α) : Nat := (Scalar.truncateNat64 before + 1) % 18446744073709551616

/-- The number of what has so many whole ones before it, if it is one of 64 bits. -/
def ordinal? (before : α) : Option Nat :=
  let whole := Scalar.truncateNat64 before
  if whole < 18446744073709551615 then some (whole + 1) else none

/-- The bars before the playhead. -/
def bars (s : Status α) : α := Scalar.floor (Scalar.larger s.playhead 0 / Piece.beatsPerBar)

/-- The beats of its bar before the playhead. -/
def beats (s : Status α) : α :=
  Scalar.floor (Scalar.larger s.playhead 0 - s.bars * Piece.beatsPerBar)

/-- The playhead as bar and beat, both counted from one. -/
def position (s : Status α) : String :=
  toString (ordinal s.bars) ++ "." ++ toString (ordinal s.beats)

/-- The playhead as bar and beat, with a check of both numbers. -/
def position? (s : Status α) : Option String := do
  let bar ← ordinal? s.bars
  let beat ← ordinal? s.beats
  return toString bar ++ "." ++ toString beat

/-- Whether music is playing, in a word. -/
def playback (s : Status α) : String := if s.isPlaying then "PLAY" else "STOP"

/-- What the compose service is doing, if anything. -/
def remoteText (s : Status α) : Option String :=
  match s.remote with
  | .idle => none
  | .generating => some "generating…"
  | .exporting => some "exporting…"

end Status

end NoteRoll
