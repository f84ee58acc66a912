import NoteRoll.Numeral
import NoteRoll.Scalar

/-!
# Decimal numbers and their texts

A decimal is a sign, a natural number of digits and the power of ten that its last digit counts.
Three layouts write one down: the layout of stored pieces, which turns to an exponent for the very
large and the very small; the layout of messages, which never does; and a fixed number of places.
`NumberText` says how the numbers of a piece become decimals and how decimals are read as numbers.
-/

namespace NoteRoll

/-- A decimal number: `digits · 10 ^ exponent`, with a sign that a zero has too. -/
structure Decimal where
  negative : Bool
  digits : Nat
  exponent : Int
  deriving DecidableEq, Repr

namespace Decimal

/-- Drops trailing zeros of some digits, at most `fuel` of them, into the power of ten. -/
def dropZeros : (fuel : Nat) → (digits : Nat) → (exponent : Int) → Nat × Int
  | 0, d, e => (d, e)
  | fuel + 1, d, e => if d % 10 = 0 then dropZeros fuel (d / 10) (e + 1) else (d, e)

/-- The same number with no trailing zeros; a zero has the power zero. -/
def normalized (d : Decimal) : Decimal :=
  if d.digits = 0 then { d with exponent := 0 } else
    let (digits, exponent) := dropZeros (Nat.toDigits 10 d.digits).length d.digits d.exponent
    { d with digits, exponent }

/-- The sign in front of a number. -/
def sign (d : Decimal) : String := if d.negative then "-" else ""

/-- Zeros of a given number. -/
def zeros (n : Nat) : String := String.ofList (List.replicate n '0')

/-- The digits with a point after as many of them as `before` says. -/
def pointed (digits : String) (before : Nat) : String :=
  String.ofList (digits.toList.take before) ++ "." ++ String.ofList (digits.toList.drop before)

/-- Digits with the decimal point `point` places after their beginning, where that may lie outside
them, and a final `.0` on whole numbers if asked for. -/
def positional (digits : String) (point : Int) (markWhole : Bool) : String :=
  let n := digits.length
  if point ≤ 0 then "0." ++ zeros (-point).toNat ++ digits
  else if (n : Int) ≤ point then
    digits ++ zeros (point - n).toNat ++ (if markWhole then ".0" else "")
  else pointed digits point.toNat

/-- Digits with a power of ten, one digit before the point, and a mark in front of a power that is
not negative. -/
def scientific (digits : String) (point : Int) (plus : String) : String :=
  let mantissa := if digits.length = 1 then digits else pointed digits 1
  let power := point - 1
  mantissa ++ "e" ++ (if power < 0 then "-" else plus) ++ toString power.natAbs

/-- The layout of stored pieces and settings: positional from `0.00001` to below `10 ^ 16`, with `.0`
on whole numbers, and with an exponent beyond, where pieces have a plus sign and settings none. -/
def stored (d : Decimal) (plus : String) : String :=
  d.sign ++
    if d.digits = 0 then "0.0" else
      let digits := toString d.digits
      let point := (digits.length : Int) + d.exponent
      if -5 < point ∧ point ≤ 16 then positional digits point true else scientific digits point plus

/-- The layout of messages: positional, and nothing after a whole number. -/
def plain (d : Decimal) : String :=
  d.sign ++
    if d.digits = 0 then "0" else
      let digits := toString d.digits
      positional digits ((digits.length : Int) + d.exponent) false

/-- The layout of a decimal whose last digit counts `10 ^ -places`. -/
def withPlaces (d : Decimal) (places : Nat) : String :=
  let digits := toString d.digits
  let digits := zeros (places + 1 - digits.length) ++ digits
  d.sign ++ if places = 0 then digits else pointed digits (digits.length - places)

end Decimal

/-- Which of two equally near neighbours a rounding takes. -/
inductive Tie where
  | toEven
  | up
  deriving DecidableEq, Repr

/-- A quotient of natural numbers rounded to the nearest one. -/
def roundDiv (num den : Nat) (tie : Tie) : Nat :=
  let q := num / den
  let twice := 2 * (num % den)
  if twice < den then q
  else if twice = den ∧ tie = .toEven ∧ q % 2 = 0 then q
  else q + 1

/-- A value that no decimal writes. -/
inductive NonFinite where
  | infinity
  | negativeInfinity
  | missing
  deriving DecidableEq, Repr

/-- How the numbers of a piece are written and read as decimals. -/
class NumberText (α : Type) where
  /-- The decimal of fewest digits that reads back; none for what is no finite number. -/
  shortest : Tie → α → Option Decimal
  /-- The value rounded to a number of places, ties to even; none for what is no finite number. -/
  rounded : (places : Nat) → α → Option Decimal
  /-- The number nearest to a decimal; none if that lies beyond the range of finite numbers. -/
  nearest : Decimal → Option α
  /-- The number that a decimal of a stored text is read as; none if it is out of range. -/
  stored? : Decimal → Option α
  /-- The number of a kind that no decimal writes, if the arithmetic has it. -/
  nonFinite : NonFinite → Option α

namespace NumberText

variable {α : Type} [Scalar α] [NumberText α]

/-- The kind of a number that is not finite. -/
def kind (x : α) : NonFinite :=
  if x == x then (if x < 0 then .negativeInfinity else .infinity) else .missing

/-- What stands for a number that is not finite in messages. -/
def notFinite (x : α) : String :=
  match kind x with
  | .infinity => "inf"
  | .negativeInfinity => "-inf"
  | .missing => "NaN"

/-- A number as messages write it. -/
def plain (x : α) : String :=
  match shortest .up x with
  | some d => d.plain
  | none => notFinite x

/-- A number as messages write it with a fixed number of places. -/
def fixed (places : Nat) (x : α) : String :=
  match rounded places x with
  | some d => d.withPlaces places
  | none => notFinite x

end NumberText

end NoteRoll
