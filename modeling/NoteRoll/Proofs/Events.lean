import NoteRoll.Studio

/-!
# The events of a studio

Everything that can be done to a piece while it is edited, as data: the
operations of the session, the pointer on the grid, the pointer in the velocity
lane, and the view that both are seen through. A history of use is then a list
of events, "in any order" is every list, and a law of all interleavings is an
induction over that list.

Each event answers with a `Reply`, and its `Mark` reads off the reply what the
event meant to the undo history. The mark is a claim, not a definition: that
the history moved just as the mark says is proved where the marks are used.
-/

namespace NoteRoll

/-- One thing done to a piece. -/
inductive Event (α : Type) where
  | commitNotes (notes : List (Note α))
  | commitCurrent
  | undo
  | redo
  | deleteNote (id : NoteId)
  | deleteSelected
  /-- Some notes are selected; identities that are not in use are left out. -/
  | select (ids : List NoteId)
  | copySelected
  | pasteAt (beat : α)
  | applyPiece (piece : Piece α)
  | importText (text : String)
  | generate (service : ComposeService α) (prompt : String)
  | exportMidi (service : ComposeService α)
  | setActiveTrack (id : TrackId)
  | cycleActiveTrack
  | toggleMute (id : TrackId)
  | toggleHidden (id : TrackId)
  | setBpm (bpm : α)
  | setSnap (quantum : α)
  | setTool (tool : Tool)
  | gridDown (p : Point α) (button : PointerButton)
  | gridMove (p : Point α)
  | gridUp
  | gridCancel
  | scrollPitch (semitones : Int)
  | centerOn (center rows : Nat)
  | laneDown (beat y : α)
  | laneMove (y : α)
  | laneUp
  | laneCancel
  | setLane (lane : VelocityLane α)

/-- What an event answers. -/
inductive Reply where
  | done
  | flag (b : Bool)
  | count (n : Nat)
  /-- How many notes were taken over, or that the piece was refused. -/
  | taken (n : Option Nat)
  /-- What a switch was set to, or that there was none. -/
  | switched (b : Option Bool)
  | gesture (outcome : GestureOutcome)

/-- The answers of an event that did nothing. -/
def Reply.isNothing : Reply → Bool
  | .flag false | .count 0 | .taken none | .switched none
  | .gesture .ignored => true
  | _ => false

/-- What an event means to the history. -/
inductive Mark where
  | stay
  | commit
  | undo
  | redo
  deriving DecidableEq

/-- The history after an event of a mark, which left some notes behind. -/
def Mark.after {β : Type} (m : Mark) (h : History β) (notes : β) : History β :=
  match m with
  | .stay => h
  | .commit => h.commit notes
  | .undo => h.undo?.getD h
  | .redo => h.redo?.getD h

/-- The mark of an event, by its reply. -/
def Event.mark {α : Type} : Event α → Reply → Mark
  | .commitNotes _, _ | .commitCurrent, _ => .commit
  | .undo, .flag true => .undo
  | .redo, .flag true => .redo
  | .deleteNote _, .flag true | .laneUp, .flag true => .commit
  | .deleteSelected, .count (_ + 1) | .pasteAt _, .count (_ + 1) => .commit
  | .applyPiece _, .taken (some _) | .importText _, .taken (some _)
  | .generate _ _, .taken (some _) => .commit
  | .gridDown _ _, .gesture (.deleted _) | .gridUp, .gesture .committed => .commit
  | _, _ => .stay

namespace Studio

variable {σ α : Type} [Scalar α] [NumberText α] [SoundOutput σ α]

/-- One event, with its reply. -/
def step (s : Studio σ α) : Event α → Reply × Studio σ α
  | .commitNotes notes => (.done, s.mapSession (·.commitNotes notes))
  | .commitCurrent => (.done, s.mapSession Session.commitCurrent)
  | .undo => (s.withSession Session.undo).map .flag id
  | .redo => (s.withSession Session.redo).map .flag id
  | .deleteNote note => (s.withSession (·.deleteNote note)).map .flag id
  | .deleteSelected => (s.withSession Session.deleteSelected).map .count id
  | .select ids => (.done, s.mapSession fun session =>
    { session with selection := (Selection.ofList ids).prune session.document })
  | .copySelected => (s.withSession Session.copySelected).map .count id
  | .pasteAt beat => (s.withSession (·.pasteAt beat)).map .count id
  | .applyPiece piece =>
    (s.withSession (·.applyPiece piece)).map (fun n => .taken (some n)) id
  | .importText text =>
    (s.withSession (·.importText text)).map (fun r => .taken r.toOption) id
  | .generate service prompt =>
    (s.withSession (·.generate service prompt)).map (fun r => .taken r.toOption) id
  | .exportMidi service =>
    (s.withSession (·.exportMidi service)).map (fun r => .flag r.toOption.isSome) id
  | .setActiveTrack track => (s.withSession (·.setActiveTrack track)).map .flag id
  | .cycleActiveTrack => (.done, s.mapSession Session.cycleActiveTrack)
  | .toggleMute track => (s.withSession (·.toggleMute track)).map .switched id
  | .toggleHidden track => (s.withSession (·.toggleHidden track)).map .switched id
  | .setBpm bpm => (.done, s.mapSession (·.setBpm bpm))
  | .setSnap quantum => (.done, s.mapSession (·.setSnap quantum))
  | .setTool tool => (.done, s.mapSession (·.setTool tool))
  | .gridDown p button => (s.gridDown p button).map .gesture id
  | .gridMove p => (s.gridMove p).map .gesture id
  | .gridUp => s.gridUp.map .gesture id
  | .gridCancel => (.done, s.gridCancel)
  | .scrollPitch semitones => (.done, s.mapGrid (·.scrollPitch semitones))
  | .centerOn center rows => (.done, s.mapGrid (·.centerOn center rows))
  | .laneDown beat y => (s.laneDown beat y).map .flag id
  | .laneMove y => (s.laneMove y).map .flag id
  | .laneUp => s.laneUp.map .flag id
  | .laneCancel => s.laneCancel.map .flag id
  | .setLane lane => (.done, s.setLane lane)

/-- What an event answers in a state. -/
def reply (s : Studio σ α) (e : Event α) : Reply := (s.step e).1

/-- The state after an event. -/
def next (s : Studio σ α) (e : Event α) : Studio σ α := (s.step e).2

/-- What an event means to the history of a state. -/
def mark (s : Studio σ α) (e : Event α) : Mark := e.mark (s.reply e)

/-- The state after some events. -/
def run (s : Studio σ α) (events : List (Event α)) : Studio σ α := events.foldl next s

@[simp] theorem run_nil (s : Studio σ α) : s.run [] = s := rfl

@[simp] theorem run_cons (s : Studio σ α) (e : Event α) (es : List (Event α)) :
    s.run (e :: es) = (s.next e).run es := rfl

theorem run_append (s : Studio σ α) (es fs : List (Event α)) :
    s.run (es ++ fs) = (s.run es).run fs := by
  simp only [run, List.foldl_append]

/-- The marks that some events leave. -/
def marks (s : Studio σ α) : List (Event α) → List Mark
  | [] => []
  | e :: es => s.mark e :: (s.next e).marks es

/-- What every event keeps, every run keeps. -/
theorem run_keeps {P : Studio σ α → Prop} (hstep : ∀ s e, P s → P (s.next e))
    {s : Studio σ α} (h : P s) (events : List (Event α)) : P (s.run events) := by
  induction events generalizing s with
  | nil => exact h
  | cons e es ih => exact ih (hstep s e h)

/-- Each of some events meets a condition in the state that it finds. -/
def Along (A : Studio σ α → Event α → Prop) (s : Studio σ α) : List (Event α) → Prop
  | [] => True
  | e :: es => A s e ∧ (s.next e).Along A es

/-- What every event that meets a condition keeps, a run of such events keeps. -/
theorem Along.run_keeps {A : Studio σ α → Event α → Prop} {P : Studio σ α → Prop}
    (hstep : ∀ s e, A s e → P s → P (s.next e)) {s : Studio σ α} {events : List (Event α)}
    (hall : s.Along A events) (h : P s) : P (s.run events) := by
  induction events generalizing s with
  | nil => exact h
  | cons e es ih => exact ih hall.2 (hstep s e hall.1 h)

theorem Along.mono {A A' : Studio σ α → Event α → Prop} (hA : ∀ s e, A s e → A' s e)
    {s : Studio σ α} {events : List (Event α)} (hall : s.Along A events) :
    s.Along A' events := by
  induction events generalizing s with
  | nil => trivial
  | cons e es ih => exact ⟨hA s e hall.1, ih hall.2⟩

/-- A studio that was just opened on a document, with no gesture begun. -/
structure Fresh (s : Studio σ α) (d : Document α) : Prop where
  session : s.session = Session.start d
  idle : s.gestures.gesture = .idle
  still : s.velocities.editing = none

/-- The states that use leads to from a document of some kind, where each event
meets a condition. -/
def Grown (D : Document α → Prop) (A : Studio σ α → Event α → Prop) (s : Studio σ α) : Prop :=
  ∃ (document : Document α) (fresh : Studio σ α) (events : List (Event α)),
    D document ∧ fresh.Fresh document ∧ fresh.Along A events ∧ s = fresh.run events

theorem Grown.mono {D D' : Document α → Prop} {A A' : Studio σ α → Event α → Prop}
    {s : Studio σ α} (hD : ∀ d, D d → D' d) (hA : ∀ s e, A s e → A' s e) (h : s.Grown D A) :
    s.Grown D' A' := by
  obtain ⟨document, fresh, events, hd, hfresh, hall, rfl⟩ := h
  exact ⟨document, fresh, events, hD _ hd, hfresh, hall.mono hA, rfl⟩

/-- What holds of a fresh studio, and is kept by the events, holds of all states
that they lead to. -/
theorem Grown.invariant {D : Document α → Prop} {A : Studio σ α → Event α → Prop}
    {P : Studio σ α → Prop} (hstart : ∀ d (s : Studio σ α), D d → s.Fresh d → P s)
    (hstep : ∀ s e, A s e → P s → P (s.next e)) {s : Studio σ α} (h : s.Grown D A) : P s := by
  obtain ⟨document, fresh, events, hd, hfresh, hall, rfl⟩ := h
  exact hall.run_keeps hstep (hstart document fresh hd hfresh)

/-- The states that use can lead to from a session just opened on a document,
whatever the editors, the transport and the output were before. -/
def Reachable (s : Studio σ α) : Prop :=
  ∃ (document : Document α) (fresh : Studio σ α) (events : List (Event α)),
    fresh.session = Session.start document ∧ s = fresh.run events

/-- An invariant of the session that holds of every session just opened, and is
kept by every event, holds of every reachable state. -/
theorem Reachable.invariant {P : Session α → Prop}
    (hstart : ∀ d, P (Session.start d))
    (hstep : ∀ (s : Studio σ α) e, P s.session → P (s.next e).session)
    {s : Studio σ α} (h : s.Reachable) : P s.session := by
  obtain ⟨d, fresh, events, hfresh, rfl⟩ := h
  exact run_keeps (P := fun s => P s.session) hstep (hfresh ▸ hstart d) events

end Studio

end NoteRoll
