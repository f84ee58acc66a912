/-!
# Numbers that beats, seconds and pixels are measured in

Every musical and screen quantity of the library is an element of a type `α` with `Scalar α`. The
program runs at `Float`; the same definitions read at `Rat` are the exact arithmetic that the theory
of the editor speaks of, so a law proved there is a law of the very function that runs.

The one hard case is a value that is no number. Comparisons with it are false, `larger` and
`smaller` prefer the other operand, and it truncates to zero.
-/

namespace NoteRoll

/-- The arithmetic that the editor needs of its quantities. -/
class Scalar (α : Type) extends Zero α, One α, Add α, Sub α, Mul α, Div α, Neg α, LE α, LT α, BEq α,
    OfScientific α where
  decidableLE : DecidableLE α
  decidableLT : DecidableLT α
  /-- The value of a whole number. -/
  ofInt : Int → α
  /-- Neither infinite nor missing. -/
  isFinite : α → Bool
  /-- The greatest whole number not above the value. -/
  floor : α → α
  /-- The least whole number not below the value. -/
  ceil : α → α
  /-- The nearest whole number, halves going away from zero. -/
  round : α → α
  /-- The whole part, kept between the two bounds. -/
  truncate : (lo hi : Int) → α → Int
  /-- A total order that refines the usual one, used for sorting. -/
  precedes : α → α → Bool

namespace Scalar

variable {α : Type} [Scalar α]

instance instDecidableLE : DecidableLE α := decidableLE

instance instDecidableLT : DecidableLT α := decidableLT

/-- The value of a natural number. -/
abbrev ofNat (n : Nat) : α := ofInt (n : Int)

/-- The larger of two values; a missing number yields to the other operand. -/
def larger (x y : α) : α := if y < x then x else if y == y then y else x

/-- The smaller of two values; a missing number yields to the other operand. -/
def smaller (x y : α) : α := if x < y then x else if y == y then y else x

/-- The value kept between two bounds. -/
def clamp (lo hi x : α) : α := if x < lo then lo else if hi < x then hi else x

/-- The distance from zero. -/
def magnitude (x : α) : α := if x < 0 then -x else x

/-- Whether a whole number is a multiple of four. -/
def isMultipleOfFour (x : α) : Bool := isFinite x && floor (x / 4.0) * 4.0 == x

/-- Whole numbers of 32 signed bits. -/
def truncateInt32 (x : α) : Int := truncate (-2147483648) 2147483647 x

/-- Whole numbers of 64 signed bits. -/
def truncateInt64 (x : α) : Int := truncate (-9223372036854775808) 9223372036854775807 x

/-- Natural numbers of 32 bits. -/
def truncateNat32 (x : α) : Nat := (truncate 0 4294967295 x).toNat

/-- Natural numbers of 64 bits. -/
def truncateNat64 (x : α) : Nat := (truncate 0 18446744073709551615 x).toNat

end Scalar

/-- Exact arithmetic. -/
instance instScalarRat : Scalar Rat where
  zero := Rat.ofInt 0
  one := Rat.ofInt 1
  decidableLE := inferInstance
  decidableLT := inferInstance
  ofInt n := (n : Rat)
  isFinite _ := true
  floor x := (x.floor : Rat)
  ceil x := (x.ceil : Rat)
  round x := if x.num < 0 then ((x - mkRat 1 2).ceil : Rat) else ((x + mkRat 1 2).floor : Rat)
  truncate lo hi x := max lo (min hi (if x.num < 0 then x.ceil else x.floor))
  precedes x y := decide (x ≤ y)

namespace Binary64

/-- Whole numbers and halves are told apart below this bound; from it on every value is whole. -/
def wholeFrom : Float := 4503599627370496.0

/-- The whole part of a value, of at most 64 bits. -/
def whole (x : Float) : Int :=
  if x < 0.0 then -(((-x).toUInt64.toNat : Nat) : Int) else ((x.toUInt64.toNat : Nat) : Int)

/-- The sign of the first argument on the second, which keeps a zero negative. -/
def withSignOf (x y : Float) : Float := if x.toBits >>> 63 == 1 && y == 0.0 then -0.0 else y

/-- Whether the value is whole already, or not finite. -/
def isSettled (x : Float) : Bool := !(x < wholeFrom && -wholeFrom < x)

/-- The value of a whole number of at most 64 bits. -/
def ofWhole (n : Int) : Float :=
  if n < 0 then -((-n).toNat.toUInt64.toFloat) else n.toNat.toUInt64.toFloat

/-- The greatest whole number not above the value. -/
def floor (x : Float) : Float :=
  if isSettled x then x else
    let w := ofWhole (whole x)
    withSignOf x (if x < w then w - 1.0 else w)

/-- The least whole number not below the value. -/
def ceil (x : Float) : Float :=
  if isSettled x then x else
    let w := ofWhole (whole x)
    withSignOf x (if w < x then w + 1.0 else w)

/-- The nearest whole number, halves going away from zero. -/
def round (x : Float) : Float :=
  if isSettled x then x else
    let w := ofWhole (whole x)
    withSignOf x (if x - w ≥ 0.5 then w + 1.0 else if x - w ≤ -0.5 then w - 1.0 else w)

/-- The order of the bit patterns: by value, with the negative zero first. -/
def orderKey (x : Float) : Int :=
  let bits := x.toBits.toNat
  if bits < 9223372036854775808 then (bits : Int) else 9223372036854775807 - (bits : Int)

end Binary64

/-- The arithmetic that runs. -/
instance instScalarFloat : Scalar Float where
  zero := 0.0
  one := 1.0
  decidableLE := inferInstance
  decidableLT := inferInstance
  ofInt n :=
    if -9007199254740992 ≤ n ∧ n ≤ 9007199254740992 then Binary64.ofWhole n else Float.ofInt n
  isFinite := Float.isFinite
  floor := Binary64.floor
  ceil := Binary64.ceil
  round := Binary64.round
  truncate lo hi x := max lo (min hi (Binary64.whole x))
  precedes x y := decide (Binary64.orderKey x ≤ Binary64.orderKey y)

end NoteRoll
