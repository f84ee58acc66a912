import NoteRoll.Scalar

/-!
# Snapping

A snap quantum is a length in beats to whose multiples positions are pulled. A quantum that is zero
or negative turns snapping off.
-/

namespace NoteRoll.Snap

variable {α : Type} [Scalar α]

/-- The multiple of the quantum nearest to a value, halves going away from zero. -/
def snap (value quantum : α) : α :=
  if quantum ≤ 0 then value else Scalar.round (value / quantum) * quantum

/-- The quanta on offer, with the labels they go by. -/
def choices : List (String × α) :=
  [("1/1", 4.0), ("1/2", 2.0), ("1/4", 1.0), ("1/8", 0.5), ("1/16", 0.25), ("1/32", 0.125),
    ("Off", 0.0)]

/-- Quanta closer than this are one and the same. -/
def labelTolerance : α := 2.220446049250313e-16

/-- The label of a quantum; one that is not on offer is `custom`. -/
def label (quantum : α) : String :=
  match (choices (α := α)).find? fun c => decide (Scalar.magnitude (c.2 - quantum) < labelTolerance) with
  | some c => c.1
  | none => "custom"

end NoteRoll.Snap
