import NoteRoll.Decimal.Scaled

/-!
# Decimals of exact numbers

In exact arithmetic a decimal is read as just the number that it writes. The other way round only
those numbers have a decimal whose denominator divides a power of ten.
-/

namespace NoteRoll.Decimal

/-- The fewest places that a fraction with a denominator takes, if it is a decimal at all. -/
def places? (den : Nat) : Option Nat :=
  (List.range (Nat.log2 den + 1)).find? fun places => Nat.pow 10 places % den == 0

/-- The decimal that a number is. -/
def ofRat? (x : Rat) : Option Decimal :=
  (places? x.den).map fun places => normalized
    ⟨decide (x.num < 0), x.num.natAbs * Nat.pow 10 places / x.den, -(places : Int)⟩

end NoteRoll.Decimal

namespace NoteRoll

/-- The texts of exact numbers. -/
instance instNumberTextRat : NumberText Rat where
  shortest _ x := Decimal.ofRat? x
  rounded places x := some
    ⟨decide (x.num < 0), roundDiv (x.num.natAbs * Nat.pow 10 places) x.den .toEven, -(places : Int)⟩
  nearest := Decimal.scaled?
  stored? := Decimal.scaled?
  nonFinite _ := none

example : Decimal.ofRat? (-5 / 16) = some ⟨true, 3125, -4⟩ := by decide +kernel

end NoteRoll
