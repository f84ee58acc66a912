import NoteRoll.Scalar
import NoteRoll.Track

/-!
# Sound outputs

What playing and editing need of a sound output: a clock in seconds, whether it is usable, and a few
calls. `Recorder` is the output that writes down each call that it gets; whether it is ready, what
its clock says and whether it gives out handles are set from outside, so that it can behave like any
output.
-/

namespace NoteRoll

/-- What a sounding note is released by. -/
abbrev Handle := Nat

/-- A sound output with states `σ`, whose times are seconds on its own clock. -/
class SoundOutput (σ : Type) (α : outParam Type) where
  isReady : σ → Bool
  /-- The time on the output's clock. -/
  now : σ → α
  /-- Lets a pitch be heard at once. -/
  preview : (pitch : Nat) → TrackId → σ → σ
  /-- Starts a note at a time; gives a handle if the note can be released. -/
  schedule : (pitch : Nat) → TrackId → (time : α) → (gain : α) → σ → Option Handle × σ
  /-- Ends a note at a time. -/
  release : Handle → (time : α) → σ → σ
  /-- Tells the tracks that are about to be played. -/
  configure : List Track → σ → σ

/-- The gain that a velocity is played with. -/
def velocityGain {α : Type} [Scalar α] (velocity : Nat) : α := Scalar.ofNat velocity / 127.0

/-- A call of a sound output. -/
inductive SoundCall (α : Type) where
  | preview (pitch : Nat) (track : TrackId)
  | schedule (pitch : Nat) (track : TrackId) (time gain : α) (handle : Option Handle)
  | release (handle : Handle) (time : α)
  | configure (tracks : List TrackId)

/-- A sound output that records its calls. -/
structure Recorder (α : Type) where
  ready : Bool
  clock : α
  /-- Whether notes get handles. -/
  givesHandles : Bool
  nextHandle : Handle
  /-- The calls so far, in order. -/
  calls : List (SoundCall α)

namespace Recorder

variable {α : Type}

/-- A recorder without calls, at a time. -/
def start (ready : Bool) (clock : α) : Recorder α := ⟨ready, clock, true, 1, []⟩

/-- Adds a call. -/
def record (r : Recorder α) (c : SoundCall α) : Recorder α := { r with calls := r.calls ++ [c] }

/-- Starts a note, with the next handle if handles are given. -/
def schedule (r : Recorder α) (pitch : Nat) (track : TrackId) (time gain : α) :
    Option Handle × Recorder α :=
  if r.givesHandles then
    (some r.nextHandle,
      { r with nextHandle := r.nextHandle + 1 }.record
        (.schedule pitch track time gain (some r.nextHandle)))
  else (none, r.record (.schedule pitch track time gain none))

instance instSoundOutputRecorder : SoundOutput (Recorder α) α where
  isReady r := r.ready
  now r := r.clock
  preview pitch track r := r.record (.preview pitch track)
  schedule pitch track time gain r := r.schedule pitch track time gain
  release handle time r := r.record (.release handle time)
  configure tracks r := r.record (.configure (tracks.map (·.id)))

end Recorder

end NoteRoll
