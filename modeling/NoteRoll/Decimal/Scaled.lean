import NoteRoll.Decimal

/-!
# Decimals by their scale

A quick way from a decimal to a number: the digits as a whole number, then one multiplication or
division by the power of ten. Each of these rounds, so where digits or power are large the result may
miss the nearest number by a little. In exact arithmetic it is the decimal itself.
-/

namespace NoteRoll.Decimal

/-- The greatest power of ten that numbers are scaled by at once. -/
def maxPower : Nat := 308

/-- A power of ten. -/
def power {α : Type} [Scalar α] (n : Nat) : α := OfScientific.ofScientific 1 false n

variable {α : Type} [Scalar α]

/-- A number divided by a power of ten, in steps where the power is large. -/
def dividedByPower (x : α) (n : Nat) : α :=
  if n ≤ maxPower then x / power n
  else if x == 0 then x
  else dividedByPower (x / power maxPower) (n - maxPower)
termination_by n
decreasing_by simp only [maxPower] at *; omega

/-- A number multiplied by a power of ten, if the result is in range. Only zero can take a power that
is not in range itself. -/
def timesPower? (x : α) (n : Nat) : Option α :=
  if n ≤ maxPower then
    let y := x * power n
    if Scalar.isFinite y then some y else none
  else if x == 0 then some x
  else none

/-- The digits of a decimal scaled by its power of ten; none for what is out of range. -/
def scaled? (d : Decimal) : Option α :=
  let x : α := Scalar.ofNat d.digits
  let y := if d.exponent < 0 then some (dividedByPower x d.exponent.natAbs)
    else timesPower? x d.exponent.natAbs
  if d.negative then y.map fun y => -y else y

end NoteRoll.Decimal
