import NoteRoll.Document
import NoteRoll.Playback.Timing
import NoteRoll.Session

/-!
# Configuration

The settings of the program and where its log goes. Every setting has a default.
-/

namespace NoteRoll

/-- The scale of the grid, in cells of the screen. -/
structure GridConfig (α : Type) where
  beatWidth : α
  rowHeight : α
  /-- Columns from the right edge of a note within which it is grabbed for resizing. -/
  edgeMargin : α

/-- The timing of playback. -/
structure PlaybackConfig (α : Type) where
  tickMillis : Nat
  lookaheadMillis : Nat
  endMargin : α

/-- Where the compose service is. -/
structure RemoteConfig where
  baseUrl : String
  timeoutSeconds : Nat
  deriving DecidableEq, Repr

/-- What is logged, and where to. -/
structure LogConfig where
  level : String
  file : Option String
  deriving DecidableEq, Repr

/-- The settings of the program. -/
structure Config (α : Type) where
  /-- The tempo of a new document. -/
  bpm : α
  /-- The snap quantum of a new session. -/
  snap : α
  grid : GridConfig α
  playback : PlaybackConfig α
  remote : RemoteConfig
  log : LogConfig

/-- Where log lines go. -/
inductive LogTarget where
  | file (path : String)
  | stderr
  | discard
  deriving DecidableEq, Repr

/-- The file if there is one; otherwise a program that has the screen to itself discards its log,
and any other writes it to the error stream. -/
def LogConfig.target (c : LogConfig) (interactive : Bool) : LogTarget :=
  match c.file, interactive with
  | some path, _ => .file path
  | none, true => .discard
  | none, false => .stderr

namespace Config

variable {α : Type} [Scalar α]

/-- The settings where nothing is configured. -/
def standard : Config α where
  bpm := Tempo.standard
  snap := Session.defaultSnap
  grid := ⟨8.0, 1.0, 1.0⟩
  playback := ⟨25, 150, Timing.defaultEndMargin⟩
  remote := ⟨"http://localhost:3000", 60⟩
  log := ⟨"info", none⟩

/-- The timing of playback, if it is a valid one. -/
def timing (c : Config α) : Except TimingError (Timing α) :=
  (Timing.ofTicks (.ofMillis c.playback.tickMillis) (.ofMillis c.playback.lookaheadMillis)).map
    (·.withEndMargin c.playback.endMargin)

/-- Two configurations with the same settings; a missing number is equal to nothing. -/
def same (c d : Config α) : Bool :=
  c.bpm == d.bpm && c.snap == d.snap && c.grid.beatWidth == d.grid.beatWidth &&
    c.grid.rowHeight == d.grid.rowHeight && c.grid.edgeMargin == d.grid.edgeMargin &&
    c.playback.tickMillis == d.playback.tickMillis &&
    c.playback.lookaheadMillis == d.playback.lookaheadMillis &&
    c.playback.endMargin == d.playback.endMargin && c.remote == d.remote && c.log == d.log

end Config

end NoteRoll
