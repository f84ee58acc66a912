import NoteRoll.Audio.Mixer
import NoteRoll.Sound

/-!
# The sound engine

The engine is the sound output over a device. It owns the mixer of the device's stream and talks to
it by commands with the frames at which they take effect, and it knows which sound each track has.
A device may be missing, or fail in each of the steps of being opened.
-/

namespace NoteRoll

/-- The step in which a device fails to open. -/
inductive DeviceStep where
  | config
  | build
  | play
  deriving DecidableEq, Repr

/-- An output device. -/
structure Device where
  /-- Frames per second. -/
  rate : Nat
  channels : Nat
  /-- The step in which opening fails, with the reason. -/
  failure : Option (DeviceStep × String)

/-- Why there is no sound engine. -/
inductive EngineError where
  | noOutputDevice
  | deviceConfig (reason : String)
  | streamBuild (reason : String)
  | streamPlay (reason : String)
  deriving DecidableEq, Repr

/-- What the user is told. -/
def EngineError.message : EngineError → String
  | .noOutputDevice => "no audio output device found"
  | .deviceConfig reason => "device config error: " ++ reason
  | .streamBuild reason => "stream build error: " ++ reason
  | .streamPlay reason => "stream play error: " ++ reason

/-- The state of the engine. -/
structure Engine (α β : Type) where
  mixer : Mixer α β
  channels : Nat
  nextVoice : Handle
  /-- The sounds of the tracks; of a repeated track the last one counts. -/
  voicing : List (TrackId × VoiceKind α)
  ready : Bool

namespace Engine

variable {α β : Type} [Waveform α β] [Sample β]

/-- How many commands may wait for the stream. -/
def ringCapacity : Nat := 1024

/-- How long a note sounds that is only to be heard once, in seconds. -/
def previewSeconds : α := 0.3

/-- The gain of a note that is only to be heard once. -/
def previewGain : α := 0.7

/-- The sounds of some tracks, the last one first. -/
def voicingOf (tracks : List Track) : List (TrackId × VoiceKind α) :=
  (tracks.map fun t => (t.id, VoiceKind.ofTrack t)).reverse

/-- Opens a device. -/
def ofDevice (device : Option Device) : Except EngineError (Engine α β) :=
  match device with
  | none => .error .noOutputDevice
  | some d =>
    match d.failure with
    | some (.config, reason) => .error (.deviceConfig reason)
    | some (.build, reason) => .error (.streamBuild reason)
    | some (.play, reason) => .error (.streamPlay reason)
    | none =>
      .ok { mixer := .start ringCapacity d.channels d.rate
            channels := d.channels
            nextVoice := 1
            voicing := voicingOf Track.defaults
            ready := false }

/-- Gets the engine ready. -/
def preload (e : Engine α β) : Engine α β := { e with ready := true }

/-- Opens a device and gets the engine ready. -/
def openReady (device : Option Device) : Except EngineError (Engine α β) :=
  (ofDevice device).map preload

/-- The frame at a time. -/
def toFrame (e : Engine α β) (time : α) : Nat :=
  Scalar.truncateNat64 (Scalar.round (Scalar.larger time 0 * Scalar.ofNat e.mixer.rate))

/-- The time on the stream's clock. -/
def now (e : Engine α β) : α := Scalar.ofNat e.mixer.frame / Scalar.ofNat e.mixer.rate

/-- The sound of a track. -/
def kindOf (e : Engine α β) (track : TrackId) : VoiceKind α :=
  (e.voicing.lookup track).getD .tone

/-- Starts a voice; there is none if the stream does not take its commands fast enough. -/
def startVoice (e : Engine α β) (pitch : Nat) (track : TrackId) (time gain : α) :
    Option Handle × Engine α β :=
  let voice := e.nextVoice
  let (sent, mixer) := e.mixer.send
    (.start voice (e.kindOf track) pitch (Waveform.toSample gain) (e.toFrame time))
  (if sent then some voice else none, { e with nextVoice := voice + 1, mixer })

/-- Releases a voice at a time. -/
def release (e : Engine α β) (handle : Handle) (time : α) : Engine α β :=
  { e with mixer := (e.mixer.send (.release handle (e.toFrame time))).2 }

/-- Lets a note be heard for a moment. -/
def preview (e : Engine α β) (pitch : Nat) (track : TrackId) : Engine α β :=
  if e.ready then
    match e.startVoice pitch track e.now previewGain with
    | (some voice, started) => started.release voice (e.now + previewSeconds)
    | (none, started) => started
  else e

/-- Starts a note at a time. -/
def schedule (e : Engine α β) (pitch : Nat) (track : TrackId) (time gain : α) :
    Option Handle × Engine α β :=
  if e.ready then e.startVoice pitch track time gain else (none, e)

/-- Takes over the sounds of some tracks. -/
def configure (e : Engine α β) (tracks : List Track) : Engine α β :=
  { e with voicing := voicingOf tracks }

/-- Lets the device render a buffer of so many frames. -/
def pump (e : Engine α β) (count : Nat) : List β × Engine α β :=
  let r := e.mixer.process count
  (r.frames, { e with mixer := r.mixer })

instance instSoundOutput : SoundOutput (Engine α β) α where
  isReady e := e.ready
  now e := e.now
  preview pitch track e := e.preview pitch track
  schedule pitch track time gain e := e.schedule pitch track time gain
  release handle time e := e.release handle time
  configure tracks e := e.configure tracks

end Engine

/-- An output that keeps time and lets nothing be heard. -/
structure Silence (α : Type) where
  clock : α

instance Silence.instSoundOutput {α : Type} : SoundOutput (Silence α) α where
  isReady _ := true
  now s := s.clock
  preview _ _ s := s
  schedule _ _ _ _ s := (none, s)
  release _ _ s := s
  configure _ s := s

/-- The output that is used where nothing else is asked for. -/
inductive DefaultOutput (α β : Type) where
  | engine (e : Engine α β)
  | silence (s : Silence α)

/-- The engine over a device, or silence where that does not open. -/
def DefaultOutput.ofDevice {α β : Type} [Waveform α β] [Sample β] (device : Option Device) :
    DefaultOutput α β :=
  match Engine.openReady device with
  | .ok e => .engine e
  | .error _ => .silence ⟨0⟩

end NoteRoll
