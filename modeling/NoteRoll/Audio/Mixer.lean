import NoteRoll.Audio.Voice

/-!
# The mixer

The mixer renders buffers of interleaved samples. At the beginning of a buffer it takes all commands
that have queued up since the last one; then it adds up its voices frame by frame, keeping the sum
below a ceiling; at the end it drops the voices that are silent for good. The count of frames is the
clock of the output.
-/

namespace NoteRoll

/-- A command to the mixer, with the frame at which it takes effect. -/
inductive SoundCommand (α β : Type) where
  | start (voice : Nat) (kind : VoiceKind α) (pitch : Nat) (gain : β) (frame : Nat)
  | release (voice : Nat) (frame : Nat)

/-- The state of the mixer. -/
structure Mixer (α β : Type) where
  /-- Commands that wait for the next buffer, oldest first. -/
  queue : List (SoundCommand α β)
  /-- How many commands may wait. -/
  capacity : Nat
  voices : List (Voice α β)
  /-- Frames rendered so far. -/
  frame : Nat
  channels : Nat
  /-- Frames per second. -/
  rate : Nat

/-- What was rendered into a buffer. -/
structure Rendered (α β : Type) where
  /-- One sample per frame, the same for all channels. -/
  frames : List β
  mixer : Mixer α β

namespace Mixer

variable {α β : Type} [Waveform α β] [Sample β]

/-- The most voices that sound at once. -/
def maxVoices : Nat := 64

/-- A silent mixer. -/
def start (capacity channels rate : Nat) : Mixer α β := ⟨[], capacity, [], 0, max 1 channels, rate⟩

/-- Queues a command, and says whether there was room. -/
def send (m : Mixer α β) (c : SoundCommand α β) : Bool × Mixer α β :=
  if m.queue.length < m.capacity then (true, { m with queue := m.queue ++ [c] }) else (false, m)

/-- Sets the release of the first voice of a number. -/
def releaseVoice (id frame : Nat) : List (Voice α β) → List (Voice α β)
  | [] => []
  | v :: vs => if v.id = id then v.releaseAt frame :: vs else v :: releaseVoice id frame vs

/-- Carries out a command. A voice that is too many is left out. -/
def apply (voices : List (Voice α β)) : SoundCommand α β → List (Voice α β)
  | .start voice kind pitch gain frame =>
    if voices.length < maxVoices then voices ++ [Voice.start voice kind pitch gain frame]
    else voices
  | .release voice frame => releaseVoice voice frame voices

/-- Samples are kept between this and its negative. -/
def ceiling : β := 0.95

/-- A sample kept below the ceiling. -/
def limit (x : β) : β := if x < -ceiling then -ceiling else if ceiling < x then ceiling else x

/-- The sum of the voices at a frame on top of what is mixed already, and the voices one frame
later. -/
def mixFrame (frame : Nat) (rate : α) : (mixed : β) → List (Voice α β) → β × List (Voice α β)
  | mixed, [] => (mixed, [])
  | mixed, v :: vs =>
    let (sample, v) := v.render frame rate
    let (mixed, vs) := mixFrame frame rate (mixed + sample) vs
    (mixed, v :: vs)

/-- Renders some frames one after the other, with the newest first in what is done. -/
def renderFrames (rate : α) :
    (count frame : Nat) → (done : List β) → List (Voice α β) → List β × List (Voice α β)
  | 0, _, done, voices => (done.reverse, voices)
  | count + 1, frame, done, voices =>
    let (mixed, voices) := mixFrame frame rate 0 voices
    renderFrames rate count (frame + 1) (limit mixed :: done) voices

/-- Renders a buffer of so many frames. -/
def process (m : Mixer α β) (count : Nat) : Rendered α β :=
  let voices := m.queue.foldl apply m.voices
  let rate : α := Scalar.ofNat m.rate
  let (frames, voices) := renderFrames rate count m.frame [] voices
  let frame := m.frame + count
  { frames
    mixer := { m with
      queue := [], frame, voices := voices.filter fun v => !v.isFinished frame rate } }

/-- Number of frames that a buffer of some samples has; the last one may be cut short. -/
def framesOf (m : Mixer α β) (samples : Nat) : Nat := (samples + m.channels - 1) / m.channels

end Mixer

end NoteRoll
