import NoteRoll.Session

/-!
# The velocity lane

Below the grid every note has a stem at its centre, as high as its velocity. Dragging a stem changes
the velocity in the document at once; the change is committed when the drag ends and taken back when
it is abandoned.
-/

namespace NoteRoll

/-- The vertical extent of the lane. -/
structure VelocityLane (α : Type) where
  height : α
  /-- What is left free at the top and at the bottom. -/
  padding : α

namespace VelocityLane

variable {α : Type} [Scalar α]

/-- The lane of a fresh editor. -/
def standard : VelocityLane α := ⟨80.0, 10.0⟩

/-- The height between the lane's base line and its loudest velocity. -/
def span (lane : VelocityLane α) : α := lane.height - 2.0 * lane.padding

/-- The velocity at a distance from the top of the lane. -/
def velocityAt (lane : VelocityLane α) (y : α) : Nat :=
  if lane.span ≤ 0 then 1
  else
    let v := Scalar.round ((lane.height - y - lane.padding) / lane.span * 127.0)
    (Scalar.truncate 0 255 (Scalar.clamp 1.0 127.0 v)).toNat

/-- The height of the stem of a velocity. -/
def stemHeight (lane : VelocityLane α) (velocity : Nat) : α :=
  Scalar.ofNat velocity / 127.0 * lane.span

end VelocityLane

/-- The editor of velocities, which edits one note at a time. -/
structure VelocityEditor (α : Type) where
  lane : VelocityLane α
  editing : Option NoteId

namespace VelocityEditor

variable {α : Type} [Scalar α]

/-- How far from a note's centre, in beats, its stem is grabbed. -/
def hitTolerance : α := 0.3

/-- An editor that edits nothing. -/
def ofLane (lane : VelocityLane α) : VelocityEditor α := ⟨lane, none⟩

/-- How far a note's centre is from a beat. -/
def distance (beat : α) (n : Note α) : α := Scalar.magnitude (n.center - beat)

/-- The nearer of the best note so far and the next one; of two equally near it is the next. -/
def nearer (beat : α) (best : Option (Note α)) (n : Note α) : Option (Note α) :=
  match best with
  | some b => if distance beat b < distance beat n then some b else some n
  | none => some n

/-- The visible note whose centre is nearest to a beat, within the tolerance. -/
def hitTest? (session : Session α) (beat : α) : Option (Note α) :=
  (session.visibleNotes.filter fun n => decide (distance beat n < hitTolerance)).foldl
    (nearer beat) none

/-- Shows the velocity at a height for the note being edited. -/
def apply (e : VelocityEditor α) (session : Session α) (y : α) : Session α :=
  match e.editing with
  | none => session
  | some id =>
    { session with document := session.document.setVelocity id (e.lane.velocityAt y) }

/-- Grabs the stem nearest to a beat, and says whether there is one. -/
def pointerDown (e : VelocityEditor α) (session : Session α) (beat y : α) :
    Bool × VelocityEditor α × Session α :=
  match hitTest? session beat with
  | none => (false, e, session)
  | some n =>
    let e := { e with editing := some n.id }
    (true, e, e.apply session y)

/-- Drags the stem, and says whether there is one being dragged. -/
def pointerMove (e : VelocityEditor α) (session : Session α) (y : α) : Bool × Session α :=
  (e.editing.isSome, e.apply session y)

/-- Commits the edit, and says whether there was one. -/
def pointerUp (e : VelocityEditor α) (session : Session α) :
    Bool × VelocityEditor α × Session α :=
  match e.editing with
  | none => (false, e, session)
  | some _ => (true, { e with editing := none }, session.commitCurrent)

/-- Abandons the edit and restores the committed velocity; says whether there was an edit. -/
def cancel (e : VelocityEditor α) (session : Session α) :
    Bool × VelocityEditor α × Session α :=
  match e.editing with
  | none => (false, e, session)
  | some id =>
    let session := match session.history.present.find? fun n => n.id == id with
      | some n => { session with document := session.document.setVelocity id n.velocity }
      | none => session
    (true, { e with editing := none }, session)

end VelocityEditor

end NoteRoll
