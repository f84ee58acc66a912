import NoteRoll.Decimal

/-!
# The timing of playback

Playback is driven by ticks, and each tick looks some time ahead. The lookahead has to be longer than
the tick; otherwise a note could begin between the reach of one tick and the next.
-/

namespace NoteRoll

/-- A length of time in whole nanoseconds. -/
structure Duration where
  nanos : Nat
  deriving DecidableEq, Repr

namespace Duration

/-- A length in microseconds. -/
def ofMicros (n : Nat) : Duration := ⟨1000 * n⟩

/-- A length in milliseconds. -/
def ofMillis (n : Nat) : Duration := ⟨1000000 * n⟩

/-- The whole microseconds of a length. -/
def micros (d : Duration) : Nat := d.nanos / 1000

/-- The length in seconds. -/
def seconds {α : Type} [Scalar α] (d : Duration) : α :=
  Scalar.ofNat (d.nanos / 1000000000) + Scalar.ofNat (d.nanos % 1000000000) / 1000000000.0

/-- A number of units with a fraction of `places` digits, less its trailing zeros. -/
def inUnits (nanos places : Nat) (unit : String) : String :=
  (Decimal.normalized ⟨false, nanos, -(places : Int)⟩).plain ++ unit

/-- The text of a length, in the largest unit of which there is at least one. -/
def text (d : Duration) : String :=
  if 1000000000 ≤ d.nanos then inUnits d.nanos 9 "s"
  else if 1000000 ≤ d.nanos then inUnits d.nanos 6 "ms"
  else if 1000 ≤ d.nanos then inUnits d.nanos 3 "µs"
  else inUnits d.nanos 0 "ns"

end Duration

/-- Why a timing was rejected. -/
inductive TimingError where
  | zeroTick
  | lookaheadTooShort (tick lookahead : Duration)
  deriving DecidableEq, Repr

/-- What the user is told. -/
def TimingError.message : TimingError → String
  | .zeroTick => "tick interval must be greater than zero"
  | .lookaheadTooShort tick lookahead =>
    "lookahead (" ++ lookahead.text ++ ") must exceed the tick interval (" ++ tick.text ++ ")"

/-- How playback is driven. -/
structure Timing (α : Type) where
  tick : Duration
  lookahead : Duration
  /-- How many beats past the last note playback goes on. -/
  endMargin : α

namespace Timing

variable {α : Type} [Scalar α]

/-- How many beats past the last note playback goes on, unless configured otherwise. -/
def defaultEndMargin : α := 0.5

/-- The timing of a fresh player. -/
def standard : Timing α := ⟨.ofMillis 25, .ofMillis 150, defaultEndMargin⟩

/-- A timing from a tick and a lookahead. -/
def ofTicks (tick lookahead : Duration) : Except TimingError (Timing α) :=
  if tick.nanos = 0 then .error .zeroTick
  else if lookahead.nanos ≤ tick.nanos then .error (.lookaheadTooShort tick lookahead)
  else .ok ⟨tick, lookahead, defaultEndMargin⟩

/-- The timing with another end margin; a negative one becomes zero. -/
def withEndMargin (t : Timing α) (beats : α) : Timing α :=
  { t with endMargin := Scalar.larger beats 0 }

end Timing

end NoteRoll
