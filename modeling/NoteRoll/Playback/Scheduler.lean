import NoteRoll.Note
import NoteRoll.Playback.Clock
import NoteRoll.Playback.Timing
import NoteRoll.Sound

/-!
# The lookahead scheduler

A scheduler holds the notes of one playback in the order of their onsets. Each tick hands to the
sound output the notes whose onset has come into reach. A note's identity is handed over at most
once, and what began too long before the anchor is passed over.
-/

namespace NoteRoll

/-- What a tick did. -/
structure TickReport (α : Type) where
  /-- The beat that plays at the time of the tick. -/
  beat : α
  /-- How many notes were handed over. -/
  dispatched : Nat
  /-- Whether the end of the piece has passed. -/
  finished : Bool

/-- The state of one playback. -/
structure Scheduler (α : Type) where
  clock : BeatClock α
  /-- The notes that are not in reach yet, by onset. -/
  pending : List (Note α)
  /-- The identities that were handed over. -/
  dispatched : List NoteId
  /-- The beat from which on playback is finished. -/
  finishBeat : α
  /-- How far a tick looks ahead, in seconds. -/
  lookahead : α

namespace Scheduler

variable {α : Type} [Scalar α]

/-- Onsets earlier than this before the anchor, in seconds, are passed over. -/
def lateTolerance : α := 0.05

/-- Seconds between the end of a note and its release. -/
def releaseTail : α := 0.1

/-- Notes in the order of their onsets; those with the same onset keep their order. -/
def byOnset (notes : List (Note α)) : List (Note α) :=
  notes.mergeSort fun m n => Scalar.precedes m.start n.start

/-- The scheduler of some notes, which finishes after a beat and the margin of the timing. -/
def start (notes : List (Note α)) (endBeat : α) (clock : BeatClock α) (timing : Timing α) :
    Scheduler α where
  clock
  pending := byOnset notes
  dispatched := []
  finishBeat := endBeat + timing.endMargin
  lookahead := timing.lookahead.seconds

/-- The time at which a note begins. -/
def onset (c : BeatClock α) (n : Note α) : α := c.timeOf n.start

/-- The time at which a note is released. -/
def releaseTime (c : BeatClock α) (n : Note α) : α :=
  onset c n + n.duration * c.secondsPerBeat + releaseTail

section Dispatch

variable {σ : Type} [SoundOutput σ α]

/-- Hands one note to the output: it begins at its onset, or now if that has passed, and a handle is
used at once to set its end. -/
def play (c : BeatClock α) (now : α) (n : Note α) (out : σ) : σ :=
  let (handle, out) := SoundOutput.schedule n.pitch n.track (Scalar.larger (onset c n) now)
    (velocityGain n.velocity) out
  match handle with
  | some h => SoundOutput.release h (releaseTime c n) out
  | none => out

/-- Hands over the notes in reach. Answers with the notes left, the identities handed over and the
output. -/
def sweep (c : BeatClock α) (now horizon : α) :
    List (Note α) → (dispatched : List NoteId) → σ → List (Note α) × List NoteId × σ
  | [], dispatched, out => ([], dispatched, out)
  | n :: notes, dispatched, out =>
    if horizon < onset c n then (n :: notes, dispatched, out)
    else if onset c n < c.audioOrigin - lateTolerance || dispatched.contains n.id then
      sweep c now horizon notes dispatched out
    else sweep c now horizon notes (n.id :: dispatched) (play c now n out)

/-- One tick at a time. Nothing happens while the output is not ready. -/
def tick (s : Scheduler α) (now : α) (out : σ) : Option (TickReport α) × Scheduler α × σ :=
  if SoundOutput.isReady out then
    let (pending, dispatched, out) :=
      sweep s.clock now (now + s.lookahead) s.pending s.dispatched out
    let beat := s.clock.beatAt now
    (some ⟨beat, dispatched.length - s.dispatched.length, decide (s.finishBeat ≤ beat)⟩,
      { s with pending, dispatched }, out)
  else (none, s, out)

end Dispatch

/-- Number of notes not in reach yet. -/
def remaining (s : Scheduler α) : Nat := s.pending.length

/-- Number of notes handed over. -/
def dispatchedCount (s : Scheduler α) : Nat := s.dispatched.length

/-- Whether a note was handed over. -/
def wasDispatched (s : Scheduler α) (id : NoteId) : Bool := s.dispatched.contains id

end Scheduler

end NoteRoll
