import NoteRoll.Decimal

/-!
# JSON values

A value of the interchange format, with numbers kept apart by how they are written: a whole number
without fraction or exponent, or a decimal. A whole number too large for 64 bits is a decimal too,
and so is a negative zero. What a decimal is read as depends on how it is written, so its digits are
kept as they stand.
-/

namespace NoteRoll

namespace Json

/-- A number as it stands in a text. -/
inductive Literal where
  | integer (n : Int)
  | decimal (d : Decimal)
  deriving DecidableEq, Repr

namespace Literal

/-- The number that the literal is read as, if it is in range. -/
def value? {α : Type} [NumberText α] : Literal → Option α
  | .integer n => NumberText.nearest ⟨decide (n < 0), n.natAbs, 0⟩
  | .decimal d => NumberText.stored? d

/-- The text of a number. -/
def text : Literal → String
  | .integer n => toString n
  | .decimal d => d.stored "+"

end Literal

end Json

/-- A JSON value. -/
inductive Json where
  | null
  | flag (b : Bool)
  | number (l : Json.Literal)
  | text (s : String)
  | list (items : List Json)
  | table (entries : List (String × Json))

namespace Json

/-- A whole number. -/
def ofInt (n : Int) : Json := .number (.integer n)

/-- A number of a piece; what is not finite becomes null. -/
def ofNumber {α : Type} [NumberText α] (x : α) : Json :=
  match NumberText.shortest .toEven x with
  | some d => .number (.decimal d)
  | none => .null

/-- The value of an entry of a table. -/
def get? (j : Json) (key : String) : Option Json :=
  match j with
  | .table entries => entries.lookup key
  | _ => none

/-- The text, if the value is one. -/
def text? : Json → Option String
  | .text s => some s
  | _ => none

end Json

end NoteRoll
