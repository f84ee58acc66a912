import NoteRoll.Decimal

/-!
# Reading decimals

The free notation of decimals: a sign or none, digits before or behind a point or both, and a power
of ten or none. What is read has no trailing zeros.
-/

namespace NoteRoll.Decimal

/-- The sign in front of a text, and the rest. -/
def readSign : List Char → Bool × List Char
  | '-' :: cs => (true, cs)
  | '+' :: cs => (false, cs)
  | cs => (false, cs)

/-- The power of ten that a text writes, which is zero where nothing is written. -/
def power? : List Char → Option Int
  | [] => some 0
  | c :: cs =>
    let (negative, ds) := readSign cs
    if (c = 'e' ∨ c = 'E') ∧ ds ≠ [] ∧ ds.all isDigit then
      some (if negative then -(digitsValue ds : Int) else digitsValue ds)
    else none

/-- The decimal that a whole text writes. -/
def ofText? (cs : List Char) : Option Decimal :=
  let (negative, cs) := readSign cs
  let whole := cs.takeWhile isDigit
  let (places, rest) : List Char × List Char := match cs.dropWhile isDigit with
    | '.' :: cs => (cs.takeWhile isDigit, cs.dropWhile isDigit)
    | cs => ([], cs)
  if whole = [] ∧ places = [] then none else
    (power? rest).map fun power =>
      normalized ⟨negative, digitsValue (whole ++ places), power - places.length⟩

end NoteRoll.Decimal
