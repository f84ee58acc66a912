import NoteRoll.Editor.Gesture
import NoteRoll.Editor.Velocity
import NoteRoll.Playback.Transport

/-!
# The studio

A session with the two editors that work on it, the transport that plays it and the output that
sounds. Everything that a user does to a piece is one of the operations here; those of the parts are
applied with the others held fixed. Where an operation on the grid takes sums of 32 bits, the one that
runs is the one with a check, which has no answer where the program stops.
-/

namespace NoteRoll

/-- A session, its editors, its transport and a sound output with states `σ`. -/
structure Studio (σ α : Type) where
  session : Session α
  gestures : GestureEditor α
  velocities : VelocityEditor α
  transport : Transport α
  output : σ

namespace Studio

variable {σ α : Type} [Scalar α]

/-- Changes the session. -/
def mapSession (s : Studio σ α) (f : Session α → Session α) : Studio σ α :=
  { s with session := f s.session }

/-- Changes the session with an operation that has a result. -/
def withSession {β : Type} (s : Studio σ α) (f : Session α → β × Session α) : β × Studio σ α :=
  let (b, session) := f s.session
  (b, { s with session })

/-! ## The grid -/

/-- The pointer goes down on the grid. -/
def gridDown [SoundOutput σ α] (s : Studio σ α) (p : Point α) (button : PointerButton) :
    GestureOutcome × Studio σ α :=
  let press := s.gestures.pointerDown s.session p button
  let output := match press.preview with
    | some (pitch, track) => SoundOutput.preview pitch track s.output
    | none => s.output
  (press.outcome, { s with gestures := press.editor, session := press.session, output })

/-- The pointer goes down on the grid, with a check. -/
def gridDown? [SoundOutput σ α] (s : Studio σ α) (p : Point α) (button : PointerButton) :
    Option (GestureOutcome × Studio σ α) :=
  (s.gestures.pointerDown? s.session p button).map fun _ => s.gridDown p button

/-- The pointer moves on the grid. -/
def gridMove (s : Studio σ α) (p : Point α) : GestureOutcome × Studio σ α :=
  let (outcome, gestures) := s.gestures.pointerMove s.session p
  (outcome, { s with gestures })

/-- The pointer moves on the grid, with a check. -/
def gridMove? (s : Studio σ α) (p : Point α) : Option (GestureOutcome × Studio σ α) :=
  (s.gestures.pointerMove? s.session p).map fun _ => s.gridMove p

/-- The pointer goes up on the grid. -/
def gridUp (s : Studio σ α) : GestureOutcome × Studio σ α :=
  let (outcome, gestures, session) := s.gestures.pointerUp s.session
  (outcome, { s with gestures, session })

/-- The pointer goes up on the grid, with a check. -/
def gridUp? (s : Studio σ α) : Option (GestureOutcome × Studio σ α) :=
  (s.gestures.pointerUp? s.session).map fun _ => s.gridUp

/-- The gesture is abandoned. -/
def gridCancel (s : Studio σ α) : Studio σ α := { s with gestures := s.gestures.cancel }

/-- Changes the grid. -/
def mapGrid (s : Studio σ α) (f : Grid α → Grid α) : Studio σ α :=
  { s with gestures := { s.gestures with grid := f s.gestures.grid } }

/-- Moves the window of pitches, with a check. -/
def scrollPitch? (s : Studio σ α) (semitones : Int) : Option (Studio σ α) :=
  (s.gestures.grid.scrollPitch? semitones).map fun grid => s.mapGrid fun _ => grid

/-! ## The velocity lane -/

/-- The pointer goes down in the lane. -/
def laneDown (s : Studio σ α) (beat y : α) : Bool × Studio σ α :=
  let (grabbed, velocities, session) := s.velocities.pointerDown s.session beat y
  (grabbed, { s with velocities, session })

/-- The pointer moves in the lane. -/
def laneMove (s : Studio σ α) (y : α) : Bool × Studio σ α :=
  let (dragged, session) := s.velocities.pointerMove s.session y
  (dragged, { s with session })

/-- The drag in the lane ends. -/
def laneUp (s : Studio σ α) : Bool × Studio σ α :=
  let (committed, velocities, session) := s.velocities.pointerUp s.session
  (committed, { s with velocities, session })

/-- The drag in the lane is abandoned. -/
def laneCancel (s : Studio σ α) : Bool × Studio σ α :=
  let (cancelled, velocities, session) := s.velocities.cancel s.session
  (cancelled, { s with velocities, session })

/-- Changes the extent of the lane. -/
def setLane (s : Studio σ α) (lane : VelocityLane α) : Studio σ α :=
  { s with velocities := { s.velocities with lane } }

/-! ## Playback -/

variable [SoundOutput σ α]

/-- Plays from a beat, or from the playhead. -/
def play (s : Studio σ α) (source : Option α) : Studio σ α :=
  let (transport, output) := s.transport.play s.session source s.output
  { s with transport, output }

/-- Stops playing. -/
def stop (s : Studio σ α) : Studio σ α := { s with transport := s.transport.stop }

/-- Stops playing and returns to the beginning. -/
def rewind (s : Studio σ α) : Studio σ α := { s with transport := s.transport.rewind }

/-- Moves the playhead. -/
def seek (s : Studio σ α) (beat : α) : Studio σ α :=
  let (transport, output) := s.transport.seek beat s.session s.output
  { s with transport, output }

/-- One tick of playback. -/
def tick (s : Studio σ α) : Option (TickReport α) × Studio σ α :=
  let (report, transport, output) := s.transport.tick s.output
  (report, { s with transport, output })

/-- A tick of playback if one is due. -/
def poll (s : Studio σ α) (time : Duration) : Option (TickReport α) × Studio σ α :=
  let (report, transport, output) := s.transport.poll time s.output
  (report, { s with transport, output })

end Studio

end NoteRoll
