import NoteRoll.Playback.Scheduler
import NoteRoll.Session

/-!
# The transport

The transport is stopped, or playing with a scheduler of its own. Playing takes the notes that are
audible at that moment; editing while playing is heard the next time. Stopping and seeking throw the
scheduler away.
-/

namespace NoteRoll

/-- Whether music is playing. -/
inductive PlayState where
  | stopped
  | playing
  deriving DecidableEq, Repr

/-- The control of playback, with the playhead. -/
structure Transport (α : Type) where
  timing : Timing α
  state : PlayState
  /-- The beat that playback is at. -/
  playhead : α
  scheduler : Option (Scheduler α)
  /-- When the last tick that was polled for happened, on the clock of the polling. -/
  lastTick : Option Duration

namespace Transport

variable {α : Type} [Scalar α]

/-- A stopped transport at the beginning. -/
def ofTiming (timing : Timing α) : Transport α := ⟨timing, .stopped, 0, none, none⟩

/-- Whether music is playing. -/
def isPlaying (t : Transport α) : Bool := t.state == .playing

/-- Stops; the playhead stays where it is. -/
def stop (t : Transport α) : Transport α :=
  { t with state := .stopped, scheduler := none, lastTick := none }

/-- Stops and returns to the beginning. -/
def rewind (t : Transport α) : Transport α := { t.stop with playhead := 0 }

section Output

variable {σ : Type} [SoundOutput σ α]

/-- Plays from a beat, or from the playhead if none is given. -/
def play (t : Transport α) (session : Session α) (source : Option α) (out : σ) :
    Transport α × σ :=
  let t := t.stop
  let beat := Scalar.larger (source.getD t.playhead) 0
  let document := session.document
  let out := SoundOutput.configure document.tracks out
  let clock := BeatClock.ofTempo (SoundOutput.now out) beat document.bpm
  let notes := document.notes.filter session.isAudible
  ({ t with
      scheduler := some (Scheduler.start notes document.endBeat clock t.timing)
      state := .playing
      playhead := beat }, out)

/-- Moves the playhead; while playing, plays on from there. -/
def seek (t : Transport α) (beat : α) (session : Session α) (out : σ) : Transport α × σ :=
  let beat := Scalar.larger beat 0
  if t.isPlaying then t.play session (some beat) out else ({ t with playhead := beat }, out)

/-- One tick. When the piece has finished, playback stops and the playhead returns to the
beginning. -/
def tick (t : Transport α) (out : σ) : Option (TickReport α) × Transport α × σ :=
  match t.scheduler with
  | none => (none, t, out)
  | some scheduler =>
    match scheduler.tick (SoundOutput.now out) out with
    | (none, scheduler, out) => (none, { t with scheduler := some scheduler }, out)
    | (some report, scheduler, out) =>
      let t := { t with
        scheduler := some scheduler, playhead := Scalar.larger report.beat 0 }
      (some report, if report.finished then t.rewind else t, out)

/-- A tick if one is due at a time of the polling. -/
def poll (t : Transport α) (time : Duration) (out : σ) : Option (TickReport α) × Transport α × σ :=
  let due := match t.lastTick with
    | none => true
    | some last => decide (t.timing.tick.nanos ≤ time.nanos - last.nanos)
  if t.isPlaying && due then { t with lastTick := some time }.tick out else (none, t, out)

end Output

end Transport

end NoteRoll
