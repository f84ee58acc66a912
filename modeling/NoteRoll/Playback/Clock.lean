import NoteRoll.Scalar

/-!
# The beat clock

A beat clock pairs a time on the output's clock with the beat that plays at that time, and from there
maps times to beats and beats to times.
-/

namespace NoteRoll

/-- An anchor in time and the length of a beat. -/
structure BeatClock (α : Type) where
  /-- The time of the anchor, in seconds. -/
  audioOrigin : α
  /-- The beat that plays at the anchor. -/
  beatOrigin : α
  secondsPerBeat : α

namespace BeatClock

variable {α : Type} [Scalar α]

/-- A clock at a tempo in beats per minute. -/
def ofTempo (audioOrigin beatOrigin bpm : α) : BeatClock α :=
  ⟨audioOrigin, beatOrigin, 60.0 / bpm⟩

/-- The beat that plays at a time. -/
def beatAt (c : BeatClock α) (time : α) : α :=
  c.beatOrigin + (time - c.audioOrigin) / c.secondsPerBeat

/-- The time at which a beat plays. -/
def timeOf (c : BeatClock α) (beat : α) : α :=
  c.audioOrigin + (beat - c.beatOrigin) * c.secondsPerBeat

end BeatClock

end NoteRoll
