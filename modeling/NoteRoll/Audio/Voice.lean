import NoteRoll.Audio.Envelope
import NoteRoll.Audio.Noise
import NoteRoll.Track

/-!
# Voices

A voice is one sounding note of the synthesizer. It is rendered frame by frame against the count of
all frames, so its onset falls on the right sample whatever the size of the buffers. Times and waves
are numbers of `α`; samples are numbers of `β`, which may be coarser.
-/

namespace NoteRoll

/-- What samples are added up in. -/
class Sample (β : Type) extends Zero β, Add β, Mul β, Neg β, LT β, OfScientific β where
  decidableLT : DecidableLT β

/-- How waves are computed. -/
class Waveform (α : Type) (β : outParam Type) extends Scalar α where
  sine : α → α
  exponential : α → α
  power : α → α → α
  /-- The sample nearest to a value. -/
  toSample : α → β

instance Sample.instDecidableLT {β : Type} [Sample β] : DecidableLT β := Sample.decidableLT

instance instSampleFloat32 : Sample Float32 where
  zero := 0.0
  decidableLT := inferInstance

instance instWaveformFloat : Waveform Float Float32 where
  sine := Float.sin
  exponential := Float.exp
  power := Float.pow
  toSample := Float.toFloat32

/-- The frequency of a pitch in hertz; the A of the fourth octave has 440. -/
def frequency {α β : Type} [Waveform α β] (pitch : Nat) : α :=
  440.0 * Waveform.power 2.0 ((Scalar.ofNat pitch - 69.0) / 12.0)

/-- The sound of a voice. -/
inductive VoiceKind (α : Type) where
  /-- A sine with a soft attack. -/
  | tone
  /-- A sine and its octave that fall quickly to a low level. -/
  | bass
  /-- A sine whose pitch falls. -/
  | kick
  /-- Bright noise that dies away. -/
  | noise (decay : α)

namespace VoiceKind

variable {α : Type} [Scalar α]

/-- Whether one text is part of another. -/
def occursIn (part : List Char) : List Char → Bool
  | [] => part.isEmpty
  | c :: cs => part.isPrefixOf (c :: cs) || occursIn part cs

/-- The small letter of a capital of the Latin alphabet. The sign for kelvins is a capital too. -/
def smallLetter (c : Char) : Char := if c = '\u212a' then 'k' else c.toLower

/-- Whether the name of a track contains a word of small letters, whatever the case in it. -/
def nameContains (name word : String) : Bool :=
  occursIn word.toList (name.toList.map smallLetter)

/-- The sound of a track, told from its kind and name. -/
def ofTrack (t : Track) : VoiceKind α :=
  match t.kind with
  | .percussion =>
    if nameContains t.name "kick" then .kick
    else if nameContains t.name "hat" then .noise 0.05
    else .noise 0.18
  | .instrument => if nameContains t.name "bass" then .bass else .tone

/-- The envelope of a sound. -/
def envelope : VoiceKind α → Envelope α
  | .tone => ⟨0.01, 0.2, 0.6, 0.15⟩
  | .bass => ⟨0.005, 0.1, 0.5, 0.08⟩
  | .kick => ⟨0.002, 0.35, 0, 0⟩
  | .noise decay => ⟨0.001, decay, 0, 0⟩

end VoiceKind

/-- One sounding note, or one that is about to sound. -/
structure Voice (α β : Type) where
  id : Nat
  kind : VoiceKind α
  freq : α
  gain : β
  startFrame : Nat
  releaseFrame : Option Nat
  /-- How far the wave is through its period. -/
  phase : α
  /-- The memory of the noise's filter. -/
  filter : α
  noise : Noise

namespace Voice

variable {α β : Type} [Waveform α β] [Sample β]

/-- A voice that begins at a frame. -/
def start (id : Nat) (kind : VoiceKind α) (pitch : Nat) (gain : β) (startFrame : Nat) :
    Voice α β where
  id
  kind
  freq := frequency pitch
  gain
  startFrame
  releaseFrame := none
  phase := 0
  filter := 0
  noise := .ofSeed id

/-- Sets the frame of the release, which is never before the beginning. -/
def releaseAt (v : Voice α β) (frame : Nat) : Voice α β :=
  { v with releaseFrame := some (max frame v.startFrame) }

/-- How long the voice is held, in seconds, if it is released. -/
def held (v : Voice α β) (rate : α) : Option α :=
  v.releaseFrame.map fun r => Scalar.ofNat (r - v.startFrame) / rate

/-- How long ago the voice began, in seconds. -/
def age (v : Voice α β) (frame : Nat) (rate : α) : α := Scalar.ofNat (frame - v.startFrame) / rate

/-- The angle of a whole period. -/
def fullTurn : α := 6.283185307179586

/-- The voice after one frame of a wave of a frequency. -/
def advance (v : Voice α β) (freq rate : α) : Voice α β :=
  let phase := v.phase + freq / rate
  { v with phase := phase - Scalar.floor phase }

/-- The wave of the voice at its age, before the envelope, and the voice one frame later. -/
def wave (v : Voice α β) (t rate : α) : α × Voice α β :=
  match v.kind with
  | .tone => (Waveform.sine (v.phase * fullTurn), v.advance v.freq rate)
  | .bass =>
    (Waveform.sine (v.phase * fullTurn) * 0.8 + Waveform.sine (v.phase * 2.0 * fullTurn) * 0.2,
      v.advance v.freq rate)
  | .kick =>
    (Waveform.sine (v.phase * fullTurn),
      v.advance (45.0 + 110.0 * Waveform.exponential (-t * 35.0)) rate)
  | .noise _ =>
    let (white, noise) : α × Noise := v.noise.white
    let out := white - v.filter
    (out, { v with noise, filter := v.filter + 0.2 * out })

/-- The sample of a frame, and the voice one frame later. Before its beginning it is silent. -/
def render (v : Voice α β) (frame : Nat) (rate : α) : β × Voice α β :=
  if frame < v.startFrame then (0, v) else
    let t := v.age frame rate
    let amplitude := v.kind.envelope.amplitude t (v.held rate)
    let (wave, v) := v.wave t rate
    (Waveform.toSample (wave * amplitude) * v.gain, v)

/-- Whether the voice is silent from a frame on. -/
def isFinished (v : Voice α β) (frame : Nat) (rate : α) : Bool :=
  decide (v.startFrame ≤ frame) && v.kind.envelope.isFinished (v.age frame rate) (v.held rate)

end Voice

end NoteRoll
