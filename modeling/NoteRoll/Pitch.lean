/-!
# Pitches

A pitch is a MIDI key number, a natural number of which 0 to 127 are playable. Names count octaves
so that key 60 is `C4`.

Distances between pitches are kept in 32 signed bits, and the program stops where one leaves them:
`checked?` has no answer there. What has an answer is the same as in a program that is built without
the check, in which a distance comes round (`wrap`). So each operation that computes with distances
comes in two forms. The one with the check is the one that runs; the other is total, and says what
the first one does wherever that goes on.
-/

namespace NoteRoll.Pitch

/-- The highest playable pitch. -/
def highest : Nat := 127

/-- Number of pitches in an octave. -/
def perOctave : Nat := 12

/-- The twelve names within an octave, from C upwards. -/
def classNames : List String :=
  ["C", "C#", "D", "D#", "E", "F", "F#", "G", "G#", "A", "A#", "B"]

/-- The name of a pitch with its octave, such as `C4` for 60. -/
def name (pitch : Nat) : String :=
  classNames.getD (pitch % perOctave) "" ++ toString (((pitch / perOctave : Nat) : Int) - 1)

/-- Whether a pitch falls on a black piano key. -/
def isBlackKey (pitch : Nat) : Bool :=
  [1, 3, 6, 8, 10].contains (pitch % perOctave)

/-- The pitch itself if it is a playable key. -/
def ofInt? (pitch : Int) : Option Nat :=
  if 0 ≤ pitch ∧ pitch ≤ (highest : Int) then some pitch.toNat else none

/-- A distance in 32 signed bits: one beyond their range comes round from its other end. -/
def wrap (distance : Int) : Int := (distance + 2147483648) % 4294967296 - 2147483648

/-- What 32 signed bits hold. -/
def InRange (distance : Int) : Prop := -2147483648 ≤ distance ∧ distance ≤ 2147483647

instance instDecidableInRange (distance : Int) : Decidable (InRange distance) :=
  inferInstanceAs (Decidable (_ ∧ _))

/-- A distance in 32 signed bits, if it is in their range. -/
def checked? (distance : Int) : Option Int := if InRange distance then some distance else none

theorem wrap_of_inRange {distance : Int} (h : InRange distance) : wrap distance = distance := by
  obtain ⟨hleast, hmost⟩ := h
  rw [wrap]
  omega

theorem checked?_of_inRange {distance : Int} (h : InRange distance) :
    checked? distance = some distance := if_pos h

theorem checked?_eq_none {distance : Int} (h : ¬ InRange distance) :
    checked? distance = none := if_neg h

theorem checked?_eq_some_iff {distance kept : Int} :
    checked? distance = some kept ↔ InRange distance ∧ kept = distance := by
  rw [checked?]
  split
  · next h => exact ⟨fun hsome => ⟨h, (Option.some.inj hsome).symm⟩, fun hkept => by rw [hkept.2]⟩
  · next h => exact ⟨nofun, fun hkept => absurd hkept.1 h⟩

end NoteRoll.Pitch
