import NoteRoll.Grid
import NoteRoll.Session

/-!
# Gestures on the grid

A gesture begins when the pointer goes down, is previewed while the pointer moves and is committed
when the pointer goes up. Until then the document is untouched; the provisional notes are the
gesture's ghosts. A commit is one step of the history.

Moving notes in pitch takes sums of 32 bits, and the program stops where one does not fit. What runs
is therefore `pointerDown?`, `pointerMove?`, `pointerUp?` and `ghosts?`, with a check of each sum.
-/

namespace NoteRoll

/-- A point in pixels of the grid. -/
structure Point (α : Type) where
  x : α
  y : α

/-- A rectangle by its corners, the lesser ones first. -/
structure Rect (α : Type) where
  x0 : α
  y0 : α
  x1 : α
  y1 : α

/-- The rectangle between two corners. -/
def Rect.between {α : Type} [Scalar α] (a b : Point α) : Rect α :=
  ⟨Scalar.smaller a.x b.x, Scalar.smaller a.y b.y, Scalar.larger a.x b.x, Scalar.larger a.y b.y⟩

/-- The button that a pointer goes down with. -/
inductive PointerButton where
  | primary
  | secondary
  deriving DecidableEq, Repr

/-- What the pointer is doing on the grid. -/
inductive Gesture (α : Type) where
  | idle
  /-- A new note is stretched out from the beat where the pointer went down. -/
  | drawing (anchorBeat : α) (note : Note α)
  /-- Some notes, as they were, are moved by a common distance. -/
  | moving (grabbed : NoteId) (captured : List (Note α)) (beatOffset : α) (pitchOffset : Int)
      (deltaBeat : α) (deltaPitch : Int)
  /-- The end of a note is dragged. -/
  | resizing (id : NoteId) (originStart originDuration duration : α)
  /-- A rectangle is spanned to select what it touches. -/
  | marquee (anchor cursor : Point α)

/-- What a pointer event came to. -/
inductive GestureOutcome where
  | ignored
  | started
  | updated
  | deleted (id : NoteId)
  | committed
  | selected (count : Nat)
  deriving DecidableEq, Repr

/-- The editor of notes on a grid. -/
structure GestureEditor (α : Type) where
  gesture : Gesture α
  grid : Grid α
  /-- How close to its right edge, in pixels, a note is grabbed for resizing. -/
  edgeMargin : α

/-- What comes of the pointer going down. -/
structure Press (α : Type) where
  outcome : GestureOutcome
  editor : GestureEditor α
  session : Session α
  /-- The pitch and track to be heard at once, if any. -/
  preview : Option (Nat × TrackId)

namespace Gesture

variable {α : Type} [Scalar α]

/-- Whether there is no gesture. -/
def isIdle : Gesture α → Bool
  | .idle => true
  | _ => false

/-- A captured note at its provisional place. -/
def moveNote (grid : Grid α) (deltaBeat : α) (deltaPitch : Int) (n : Note α) : Note α :=
  { n with
    start := Scalar.larger (n.start + deltaBeat) 0
    pitch := grid.clampPitch (Pitch.wrap (n.pitch + deltaPitch)) }

/-- The provisional notes of a gesture. -/
def ghosts (g : Gesture α) (grid : Grid α) (session : Session α) : List (Note α) :=
  match g with
  | .idle | .marquee _ _ => []
  | .drawing _ note => [note]
  | .moving _ captured _ _ deltaBeat deltaPitch => captured.map (moveNote grid deltaBeat deltaPitch)
  | .resizing id _ _ duration =>
    match session.document.note? id with
    | some n => [{ n with duration }]
    | none => []

/-- A captured note at its provisional place, with a check of the sum. -/
def moveNote? (grid : Grid α) (deltaBeat : α) (deltaPitch : Int) (n : Note α) :
    Option (Note α) := do
  let pitch ← Pitch.checked? (n.pitch + deltaPitch)
  return { n with
    start := Scalar.larger (n.start + deltaBeat) 0
    pitch := grid.clampPitch pitch }

/-- The provisional notes of a gesture, with a check of each sum. -/
def ghosts? (g : Gesture α) (grid : Grid α) (session : Session α) : Option (List (Note α)) :=
  match g with
  | .moving _ captured _ _ deltaBeat deltaPitch =>
    captured.mapM (moveNote? grid deltaBeat deltaPitch)
  | g => some (g.ghosts grid session)

/-- The identities of the notes that the ghosts stand in for. -/
def ghostIds : Gesture α → List NoteId
  | .idle | .marquee _ _ => []
  | .drawing _ note => [note.id]
  | .moving _ captured _ _ _ _ => captured.map (·.id)
  | .resizing id _ _ _ => [id]

/-- The rectangle that is spanned. -/
def marqueeRect? : Gesture α → Option (Rect α)
  | .marquee anchor cursor => some (Rect.between anchor cursor)
  | _ => none

/-- The gesture after the pointer has moved to a point, or none if there is nothing to update. -/
def moveTo? (g : Gesture α) (grid : Grid α) (session : Session α) (p : Point α) :
    Option (Gesture α) :=
  let beat := grid.xToBeat p.x
  match g with
  | .idle => none
  | .drawing anchorBeat note =>
    some (.drawing anchorBeat { note with
      duration := Scalar.larger (Snap.snap (beat - anchorBeat) session.snap) session.snapUnit })
  | .moving grabbed captured beatOffset pitchOffset _ _ =>
    match captured.find? fun n => n.id == grabbed with
    | none => none
    | some n =>
      some (.moving grabbed captured beatOffset pitchOffset
        (Snap.snap (beat - beatOffset) session.snap - n.start)
        (Pitch.wrap (grid.yToPitch p.y - pitchOffset - n.pitch)))
  | .resizing id originStart originDuration _ =>
    some (.resizing id originStart originDuration
      (Scalar.larger (Snap.snap beat session.snap - originStart) session.snapUnit))
  | .marquee anchor _ => some (.marquee anchor p)

/-- The note that others are moved with, and the distance in pitch that it was grabbed at. -/
def grabbed? : Gesture α → Option (Note α × Int)
  | .moving grabbed captured _ pitchOffset _ _ =>
    (captured.find? fun n => n.id == grabbed).map fun n => (n, pitchOffset)
  | _ => none

/-- The distance in pitch that a grabbed note is moved by to a vertical pixel, with a check of each
difference. -/
def deltaPitch? (grid : Grid α) (n : Note α) (pitchOffset : Int) (y : α) : Option Int := do
  let pitch ← grid.yToPitch? y
  let target ← Pitch.checked? (pitch - pitchOffset)
  Pitch.checked? (target - n.pitch)

end Gesture

namespace GestureEditor

variable {α : Type} [Scalar α]

/-- How close to its right edge a note is grabbed for resizing, unless configured otherwise. -/
def defaultEdgeMargin : α := 6.0

/-- An editor without a gesture. -/
def ofGrid (grid : Grid α) (edgeMargin : α) : GestureEditor α := ⟨.idle, grid, edgeMargin⟩

/-- Whether there is no gesture. -/
def isIdle (e : GestureEditor α) : Bool := e.gesture.isIdle

/-- The note that can be grabbed at a point: on the pointer's row and spanning its beat. Of several
it is the last. -/
def hitTest? (e : GestureEditor α) (session : Session α) (p : Point α) : Option (Note α) :=
  let beat := e.grid.xToBeat p.x
  let pitch := e.grid.yToPitch p.y
  (session.editableNotes.filter fun n =>
    (n.pitch : Int) == pitch && decide (n.start ≤ beat) && decide (beat ≤ n.stop)).getLast?

/-- Begins to draw a note, which is heard at once. -/
def beginDraw (e : GestureEditor α) (session : Session α) (p : Point α) : Press α :=
  let beat := e.grid.xToBeat p.x
  let pitch := e.grid.clampPitch (e.grid.yToPitch p.y)
  let track := session.activeTrack
  let (id, document) := session.document.allocId
  let note := Note.ofFields id pitch (Snap.snap beat session.snap) session.drawDuration
    Note.defaultVelocity track
  { outcome := .started
    editor := { e with gesture := .drawing beat note }
    session := { session with document }
    preview := some (pitch, track) }

/-- Begins to resize a note. -/
def beginResize (e : GestureEditor α) (session : Session α) (n : Note α) : Press α where
  outcome := .started
  editor := { e with gesture := .resizing n.id n.start n.duration n.duration }
  session
  preview := none

/-- Begins to move the selected notes, or the grabbed one alone if it is not selected. -/
def beginMove (e : GestureEditor α) (session : Session α) (p : Point α) (n : Note α) : Press α :=
  let selection := if session.selection.contains n.id then session.selection else .only n.id
  let captured := session.document.notes.filter fun m => selection.contains m.id
  let beatOffset := e.grid.xToBeat p.x - n.start
  let pitchOffset := Pitch.wrap (e.grid.yToPitch p.y - n.pitch)
  { outcome := .started
    editor := { e with gesture := .moving n.id captured beatOffset pitchOffset 0 0 }
    session := { session with selection }
    preview := none }

/-- The pointer goes down on a note. -/
def pressNote (e : GestureEditor α) (session : Session α) (p : Point α) (button : PointerButton)
    (n : Note α) : Press α :=
  if button == .secondary || session.tool == .erase then
    ⟨.deleted n.id, e, (session.deleteNote n.id).2, none⟩
  else if Scalar.magnitude (p.x - e.grid.beatToX n.stop) < e.edgeMargin then e.beginResize session n
  else e.beginMove session p n

/-- The pointer goes down where no note is. -/
def pressEmpty (e : GestureEditor α) (session : Session α) (p : Point α) (button : PointerButton) :
    Press α :=
  match button, session.tool with
  | .primary, .draw => e.beginDraw session p
  | .primary, .select => ⟨.started, { e with gesture := .marquee p p }, session, none⟩
  | _, _ => ⟨.ignored, e, session, none⟩

/-- The pointer goes down. -/
def pointerDown (e : GestureEditor α) (session : Session α) (p : Point α) (button : PointerButton) :
    Press α :=
  if e.isIdle then
    match e.hitTest? session p with
    | some n => e.pressNote session p button n
    | none => e.pressEmpty session p button
  else ⟨.ignored, e, session, none⟩

/-- The pointer goes down, with a check of the row that a note is looked for in. The distance that a
note is grabbed at needs none, because the note was found in that row. -/
def pointerDown? (e : GestureEditor α) (session : Session α) (p : Point α)
    (button : PointerButton) : Option (Press α) :=
  if e.isIdle then (e.grid.yToPitch? p.y).map fun _ => e.pointerDown session p button
  else some (e.pointerDown session p button)

/-- The pointer moves. -/
def pointerMove (e : GestureEditor α) (session : Session α) (p : Point α) :
    GestureOutcome × GestureEditor α :=
  match e.gesture.moveTo? e.grid session p with
  | none => (.ignored, e)
  | some gesture => (.updated, { e with gesture })

/-- The pointer moves, with a check of the distance that notes are moved by. -/
def pointerMove? (e : GestureEditor α) (session : Session α) (p : Point α) :
    Option (GestureOutcome × GestureEditor α) :=
  match e.gesture.grabbed? with
  | some (n, pitchOffset) =>
    (Gesture.deltaPitch? e.grid n pitchOffset p.y).map fun _ => e.pointerMove session p
  | none => some (e.pointerMove session p)

/-- The provisional notes of the gesture. -/
def ghosts (e : GestureEditor α) (session : Session α) : List (Note α) :=
  e.gesture.ghosts e.grid session

/-- The provisional notes of the gesture, with a check of each sum. -/
def ghosts? (e : GestureEditor α) (session : Session α) : Option (List (Note α)) :=
  e.gesture.ghosts? e.grid session

/-- Whether a note strictly overlaps a rectangle of pixels. -/
def touches (e : GestureEditor α) (n : Note α) (r : Rect α) : Bool :=
  let x0 := e.grid.beatToX n.start
  let x1 := e.grid.beatToX n.stop
  let y0 := e.grid.pitchToY n.pitch
  let y1 := y0 + e.grid.rowHeight
  decide (x0 < r.x1) && decide (r.x0 < x1) && decide (y0 < r.y1) && decide (r.y0 < y1)

/-- Notes with those among them replaced for which there is a ghost. -/
def replaceByGhosts (notes ghosts : List (Note α)) : List (Note α) :=
  notes.map fun n => (ghosts.find? fun g => g.id == n.id).getD n

/-- The pointer goes up: the gesture ends and is committed. -/
def pointerUp (e : GestureEditor α) (session : Session α) :
    GestureOutcome × GestureEditor α × Session α :=
  let ghosts := e.ghosts session
  let rest := { e with gesture := .idle }
  match e.gesture with
  | .idle => (.ignored, rest, session)
  | .drawing _ note =>
    let session := session.commitNotes (session.document.notes ++ [note])
    (.committed, rest, { session with selection := .only note.id })
  | .moving .. | .resizing .. =>
    (.committed, rest, session.commitNotes (replaceByGhosts session.document.notes ghosts))
  | .marquee anchor cursor =>
    let r := Rect.between anchor cursor
    let ids := (session.visibleNotes.filter fun n => e.touches n r).map (·.id)
    (.selected ids.length, rest, { session with selection := .ofList ids })

/-- The pointer goes up, with a check of each sum that the ghosts take. -/
def pointerUp? (e : GestureEditor α) (session : Session α) :
    Option (GestureOutcome × GestureEditor α × Session α) :=
  (e.ghosts? session).map fun _ => e.pointerUp session

/-- Abandons the gesture. -/
def cancel (e : GestureEditor α) : GestureEditor α := { e with gesture := .idle }

end GestureEditor

end NoteRoll
