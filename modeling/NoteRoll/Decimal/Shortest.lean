import NoteRoll.Decimal.Scaled

/-!
# The fewest digits that read back

A finite binary number is a whole mantissa times a power of two, and the real numbers that round to
it form an interval around it, which contains its ends if and only if the mantissa is even. The
shortest decimal is found on the grids of multiples of `10 ^ k`: from the coarsest `k` downwards,
the first grid with a point in the interval wins, and of the two neighbours of the value on that
grid the nearer one. Everything is exact arithmetic on natural numbers.
-/

namespace NoteRoll.Decimal

/-- The magnitude of a finite number, `mantissa · 2 ^ exponent`. -/
structure Dyadic where
  mantissa : Nat
  exponent : Int

/-- The magnitude that a pattern of 64 bits stands for. -/
def Dyadic.ofBits (bits : UInt64) : Dyadic :=
  let fraction : Nat := bits.toNat % Nat.pow 2 52
  let scale : Nat := bits.toNat / Nat.pow 2 52 % Nat.pow 2 11
  if scale = 0 then ⟨fraction, -1074⟩ else ⟨fraction + Nat.pow 2 52, (scale : Int) - 1075⟩

/-- A power with an integer exponent, as the numerator and the denominator of a fraction. -/
def powerRatio (base : Nat) (exponent : Int) : Nat × Nat :=
  (Nat.pow base exponent.toNat, Nat.pow base (-exponent).toNat)

/-- The rounding interval of a dyadic, in quarters of its unit. -/
structure Interval where
  low : Nat
  value : Nat
  high : Nat
  closed : Bool

/-- The interval of numbers that round to a positive dyadic: half a unit to either side, or a
quarter below where the units halve there. -/
def Dyadic.interval (x : Dyadic) : Interval :=
  let value := 4 * x.mantissa
  let below := if x.mantissa = Nat.pow 2 52 ∧ -1074 < x.exponent then 1 else 2
  { low := value - below, value, high := value + 2, closed := x.mantissa % 2 = 0 }

/-- The point nearest to the value among those of a grid's two neighbours that lie in the interval.
Quarters are scaled by `num` and grid points by `den` to be compared. -/
def gridPoint? (i : Interval) (num den : Nat) (tie : Tie) : Option Nat :=
  let inside (d : Nat) : Bool :=
    if i.closed then decide (i.low * num ≤ d * den ∧ d * den ≤ i.high * num)
    else decide (i.low * num < d * den ∧ d * den < i.high * num)
  let down := i.value * num / den
  match inside down, inside (down + 1) with
  | true, true => some (roundDiv (i.value * num) den tie)
  | true, false => some down
  | false, true => some (down + 1)
  | false, false => none

/-- The first grid with a point in the interval, trying at most `fuel` grids from `10 ^ k` down. -/
def search (i : Interval) (unit : Int) (tie : Tie) : (fuel : Nat) → (k : Int) → Nat × Int
  | 0, k => (0, k)
  | fuel + 1, k =>
    let (twoNum, twoDen) := powerRatio 2 unit
    let (tenNum, tenDen) := powerRatio 10 k
    match gridPoint? i (twoNum * tenDen) (twoDen * tenNum) tie with
    | some d => (d, k)
    | none => search i unit tie fuel (k - 1)

/-- The shortest decimal digits of a dyadic, with the power of ten of the last one. -/
def Dyadic.shortest (x : Dyadic) (tie : Tie) : Nat × Int :=
  if x.mantissa = 0 then (0, 0) else
    let magnitude := ((Nat.log2 x.mantissa : Int) + x.exponent) * 30103 / 100000
    search x.interval (x.exponent - 2) tie 24 (magnitude + 2)

/-- A dyadic in units of `10 ^ -places`, rounded with ties to even. -/
def Dyadic.inPlaces (x : Dyadic) (places : Nat) : Nat :=
  let (num, den) := powerRatio 2 x.exponent
  roundDiv (x.mantissa * num * Nat.pow 10 places) den .toEven

/-- Whether the sign bit of a number is set. -/
def isNegative (x : Float) : Bool := x.toBits >>> 63 == 1

/-- The number nearest to a decimal. The magnitude is looked at first, so that no power of ten
beyond the range of finite numbers is ever formed. -/
def toFloat? (d : Decimal) : Option Float :=
  let digits := (Nat.toDigits 10 d.digits).length
  let signed (x : Float) : Float := if d.negative then -x else x
  if d.digits = 0 ∨ (digits : Int) + d.exponent < -400 then some (signed 0.0)
  else if 400 < (digits : Int) + d.exponent then none
  else
    let x := if d.exponent < 0 then Float.ofScientific d.digits true (-d.exponent).toNat
      else Float.ofScientific d.digits false d.exponent.toNat
    if x.isFinite then some (signed x) else none

end NoteRoll.Decimal

namespace NoteRoll

open Decimal in
/-- The texts of binary numbers of 64 bits. -/
instance instNumberTextFloat : NumberText Float where
  shortest tie x :=
    if x.isFinite then
      let (digits, exponent) := (Dyadic.ofBits x.toBits).shortest tie
      some ⟨isNegative x, digits, exponent⟩
    else none
  rounded places x :=
    if x.isFinite then
      some ⟨isNegative x, (Dyadic.ofBits x.toBits).inPlaces places, -places⟩
    else none
  nearest := toFloat?
  stored? := scaled?
  nonFinite kind := some (match kind with
    | .infinity => 1.0 / 0.0
    | .negativeInfinity => -1.0 / 0.0
    | .missing => 0.0 / 0.0)

end NoteRoll
