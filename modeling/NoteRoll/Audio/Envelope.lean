import NoteRoll.Scalar

/-!
# Envelopes

The loudness of a note over time: a rise, a fall to the level that it is held at, and a fade once it
is released. The fade starts from whatever level the note had reached at its release. How long a note
is held is not known until it is released.
-/

namespace NoteRoll

/-- The times, in seconds, and the level of an envelope. -/
structure Envelope (α : Type) where
  attack : α
  decay : α
  sustain : α
  release : α

namespace Envelope

variable {α : Type} [Scalar α]

/-- The level of a note that is still held, some time after its onset. -/
def level (e : Envelope α) (t : α) : α :=
  if t < 0 then 0
  else if t < e.attack then t / e.attack
  else if t < e.attack + e.decay then
    1 - (t - e.attack) / e.decay * (1 - e.sustain)
  else e.sustain

/-- Whether a time is before the release; a note that is not released is held for ever. -/
def isHeld (t : α) (held : Option α) : Bool :=
  match held with
  | some h => decide (t < h)
  | none => Scalar.isFinite t

/-- The amplitude some time after the onset of a note that is released after being held for some
time, or not released yet. -/
def amplitude (e : Envelope α) (t : α) (held : Option α) : α :=
  if t < 0 then 0
  else if isHeld t held then e.level t
  else if e.release ≤ 0 then 0
  else
    match held with
    | some h => Scalar.larger (e.level h * (1 - (t - h) / e.release)) 0
    | none => e.level t

/-- Whether the note is silent for good. -/
def isFinished (e : Envelope α) (t : α) (held : Option α) : Bool :=
  if e.sustain ≤ 0 ∧ e.attack + e.decay ≤ t then true
  else
    match held with
    | some h => decide (h + e.release ≤ t)
    | none => !Scalar.isFinite t && decide (0 < t)

end Envelope

end NoteRoll
