import NoteRoll.Numeral
import NoteRoll.Pitch
import NoteRoll.Scalar
import NoteRoll.Track

/-!
# Notes

A note has an identity, a pitch, an onset and a length in beats, a velocity and a track.
`Note.ofFields` is the only way in from outside and brings every field into range.
-/

namespace NoteRoll

/-- What a note is known by within a session; never given to a second note. -/
abbrev NoteId := Nat

/-- The text of a note's identity: `n` and at least six hexadecimal digits. -/
def NoteId.text (id : NoteId) : String := "n" ++ hexDigits 6 id

/-- One note of a piece. -/
structure Note (α : Type) where
  id : NoteId
  pitch : Nat
  /-- Onset in beats. -/
  start : α
  /-- Length in beats. -/
  duration : α
  velocity : Nat
  track : TrackId

namespace Note

variable {α : Type} [Scalar α]

/-- The velocity of a freshly drawn note. -/
def defaultVelocity : Nat := 90

/-- The loudest velocity. -/
def maxVelocity : Nat := 127

/-- The shortest length, in beats, where no snap quantum gives one. -/
def minDuration : α := 0.125

/-- A number kept between two bounds. -/
def intoRange (lo hi : Nat) (n : Int) : Nat := (max (lo : Int) (min (hi : Int) n)).toNat

theorem intoRange_mem {lo hi : Nat} (h : lo ≤ hi) (n : Int) :
    lo ≤ intoRange lo hi n ∧ intoRange lo hi n ≤ hi := by
  rw [intoRange]
  omega

theorem intoRange_of_mem {lo hi n : Nat} (hlo : lo ≤ n) (hhi : n ≤ hi) :
    intoRange lo hi n = n := by
  rw [intoRange]
  omega

/-- A note from fields of any value: each is brought into its range. -/
def ofFields (id : NoteId) (pitch : Int) (start duration : α) (velocity : Int) (track : TrackId) :
    Note α where
  id
  pitch := intoRange 0 Pitch.highest pitch
  start := if Scalar.isFinite start then Scalar.larger start 0 else 0
  duration := if Scalar.isFinite duration && decide (0 < duration) then duration else minDuration
  velocity := intoRange 1 maxVelocity velocity
  track

/-- The beat at which the note ends. -/
def stop (n : Note α) : α := n.start + n.duration

/-- The middle of the note, where its velocity stem stands. -/
def center (n : Note α) : α := n.start + n.duration / 2.0

/-- Two notes with the same fields; a missing number is equal to nothing. -/
instance instBEq : BEq (Note α) where
  beq m n := m.id == n.id && m.pitch == n.pitch && m.start == n.start && m.duration == n.duration &&
    m.velocity == n.velocity && m.track == n.track

end Note

end NoteRoll
