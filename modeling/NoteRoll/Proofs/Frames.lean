import NoteRoll.Proofs.Pointer

/-!
# What events leave alone

An event gets a whole session and writes a few of its fields. The notes, with their history,
their identities, the selection and the clipboard, are one part of a session; the tempo and
the tracks, with the active one and the hidden ones, are another. Few events write in both,
so most invariants are of one part and have nothing to do for the events of the other.

Each operation says here once what it leaves alone. `Studio.next_keeps` is about the events
that spare the notes, `Studio.next_editsNotes` about those that spare the settings, and the
case analysis of an invariant is left with the events that neither covers.
-/

namespace NoteRoll

variable {α : Type}

/-! ## The parts of a session -/

/-- The same notes, identities, history, selection and clipboard, whatever else
there is. -/
structure Session.Keeps (s s' : Session α) : Prop where
  history : s'.history = s.history
  notes : s'.document.notes = s.document.notes
  nextId : s'.document.nextId = s.document.nextId
  selection : s'.selection = s.selection
  clipboard : s'.clipboard = s.clipboard

/-- The same tempo and tracks, and the same of them active and hidden. -/
structure Session.SameSettings (s s' : Session α) : Prop where
  bpm : s'.document.bpm = s.document.bpm
  tracks : s'.document.tracks = s.document.tracks
  activeTrack : s'.activeTrack = s.activeTrack
  hidden : s'.hidden = s.hidden

/-- The settings stay, and the service is not asked for anything. -/
structure Session.EditsNotes (s s' : Session α) : Prop extends Session.SameSettings s s' where
  remote : s'.remote = s.remote ∨ s'.remote = .idle

/-- Other tracks, or others of them active or hidden, and nothing else. -/
def Session.SetsTracks (s s' : Session α) : Prop :=
  ∃ tracks activeTrack hidden,
    s' = { s with document := { s.document with tracks }, activeTrack, hidden }

namespace Session

variable {s s' : Session α}

theorem Keeps.refl (s : Session α) : s.Keeps s := ⟨rfl, rfl, rfl, rfl, rfl⟩

theorem EditsNotes.refl (s : Session α) : s.EditsNotes s := ⟨⟨rfl, rfl, rfl, rfl⟩, .inl rfl⟩

theorem SetsTracks.refl (s : Session α) : s.SetsTracks s :=
  ⟨s.document.tracks, s.activeTrack, s.hidden, rfl⟩

theorem SetsTracks.keeps (h : s.SetsTracks s') : s.Keeps s' := by
  obtain ⟨tracks, activeTrack, hidden, rfl⟩ := h
  exact ⟨rfl, rfl, rfl, rfl, rfl⟩

theorem SetsTracks.bpm (h : s.SetsTracks s') : s'.document.bpm = s.document.bpm := by
  obtain ⟨tracks, activeTrack, hidden, rfl⟩ := h
  rfl

theorem SetsTracks.remote (h : s.SetsTracks s') : s'.remote = s.remote := by
  obtain ⟨tracks, activeTrack, hidden, rfl⟩ := h
  rfl

/-! ## Operations on the tracks and the tempo -/

theorem setsTracks_setActiveTrack (s : Session α) (id : TrackId) :
    s.SetsTracks (s.setActiveTrack id).2 := by
  rw [setActiveTrack]
  split
  · exact ⟨_, _, _, rfl⟩
  · exact .refl s

theorem setsTracks_cycleActiveTrack (s : Session α) : s.SetsTracks s.cycleActiveTrack := by
  simp only [cycleActiveTrack]
  split
  · exact ⟨_, _, _, rfl⟩
  · exact .refl s

theorem setsTracks_toggleMute (s : Session α) (id : TrackId) :
    s.SetsTracks (s.toggleMute id).2 := by
  rw [toggleMute]
  split
  · exact .refl s
  · exact ⟨_, _, _, rfl⟩

theorem setsTracks_toggleHidden (s : Session α) (id : TrackId) :
    s.SetsTracks (s.toggleHidden id).2 := by
  rw [toggleHidden]
  split
  · exact .refl s
  · split <;> exact ⟨_, _, _, rfl⟩

/-! ## Operations on the notes -/

theorem editsNotes_undo (s : Session α) : s.EditsNotes s.undo.2 := by
  rw [undo]
  split <;> exact ⟨⟨rfl, rfl, rfl, rfl⟩, .inl rfl⟩

theorem editsNotes_redo (s : Session α) : s.EditsNotes s.redo.2 := by
  rw [redo]
  split <;> exact ⟨⟨rfl, rfl, rfl, rfl⟩, .inl rfl⟩

theorem editsNotes_deleteNote (s : Session α) (id : NoteId) :
    s.EditsNotes (s.deleteNote id).2 := by
  rw [deleteNote]
  split <;> exact ⟨⟨rfl, rfl, rfl, rfl⟩, .inl rfl⟩

theorem editsNotes_deleteSelected (s : Session α) : s.EditsNotes s.deleteSelected.2 := by
  rw [deleteSelected]
  split <;> exact ⟨⟨rfl, rfl, rfl, rfl⟩, .inl rfl⟩

variable [Scalar α]

theorem editsNotes_pasteAt (s : Session α) (beat : α) : s.EditsNotes (s.pasteAt beat).2 := by
  rw [pasteAt.eq_def]
  split <;> exact ⟨⟨rfl, rfl, rfl, rfl⟩, .inl rfl⟩

/-! ## Operations on both -/

theorem keeps_setBpm (s : Session α) (bpm : α) : s.Keeps (s.setBpm bpm) := by
  rw [setBpm, Document.setBpm]
  split <;> exact ⟨rfl, rfl, rfl, rfl, rfl⟩

theorem applyPiece_remote (s : Session α) (p : Piece α) :
    (s.applyPiece p).2.remote = s.remote := by
  rw [applyPiece, takeTracks]
  split <;> rfl

theorem applyResult_remote {ε : Type} (s : Session α) (r : Except ε (Piece α)) :
    (s.applyResult r).2.remote = s.remote := by
  cases r with
  | error e => rfl
  | ok p => exact s.applyPiece_remote p

end Session

/-! ## The editors -/

section Editors

variable [Scalar α]

theorem GestureEditor.editsNotes_pointerDown (e : GestureEditor α) (s : Session α)
    (p : Point α) (button : PointerButton) :
    s.EditsNotes (e.pointerDown s p button).session := by
  rcases e.pointerDown_forms s p button with
    h | ⟨n, -, h⟩ | ⟨-, h | ⟨n, -, h⟩ | ⟨n, -, h⟩ | h⟩
  all_goals rw [h]
  · exact .refl s
  · exact s.editsNotes_deleteNote n.id
  all_goals exact ⟨⟨rfl, rfl, rfl, rfl⟩, .inl rfl⟩

theorem GestureEditor.editsNotes_pointerUp (e : GestureEditor α) (s : Session α) :
    s.EditsNotes (e.pointerUp s).2.2 := by
  rcases e.pointerUp_cases s with
    ⟨-, h⟩ | ⟨-, notes, selection, h, -⟩ | ⟨-, count, selection, h, -⟩
  all_goals
    rw [h]
    exact ⟨⟨rfl, rfl, rfl, rfl⟩, .inl rfl⟩

theorem VelocityEditor.editsNotes_apply (e : VelocityEditor α) (s : Session α) (y : α) :
    s.EditsNotes (e.apply s y) := by
  rcases e.apply_cases s y with ⟨-, h⟩ | ⟨id, -, h⟩
  all_goals
    rw [h]
    exact ⟨⟨rfl, rfl, rfl, rfl⟩, .inl rfl⟩

theorem VelocityEditor.editsNotes_pointerDown (e : VelocityEditor α) (s : Session α)
    (beat y : α) : s.EditsNotes (e.pointerDown s beat y).2.2 := by
  rcases e.pointerDown_cases s beat y with ⟨-, h⟩ | ⟨n, -, h⟩
  all_goals
    rw [h]
    exact ⟨⟨rfl, rfl, rfl, rfl⟩, .inl rfl⟩

omit [Scalar α] in
theorem VelocityEditor.editsNotes_pointerUp (e : VelocityEditor α) (s : Session α) :
    s.EditsNotes (e.pointerUp s).2.2 := by
  rcases e.pointerUp_cases s with ⟨-, h⟩ | ⟨-, h⟩
  all_goals
    rw [h]
    exact ⟨⟨rfl, rfl, rfl, rfl⟩, .inl rfl⟩

omit [Scalar α] in
theorem VelocityEditor.editsNotes_cancel (e : VelocityEditor α) (s : Session α) :
    s.EditsNotes (e.cancel s).2.2 := by
  rcases e.cancel_cases s with ⟨-, h⟩ | ⟨id, -, h⟩
  · rw [h]
    exact ⟨⟨rfl, rfl, rfl, rfl⟩, .inl rfl⟩
  · rw [h]
    cases committed? s id <;> exact ⟨⟨rfl, rfl, rfl, rfl⟩, .inl rfl⟩

end Editors

/-! ## The events -/

/-- The events that are about notes and not about tracks or the tempo. -/
def Event.isAboutNotes : Event α → Bool
  | .applyPiece _ | .importText _ | .generate _ _ | .setActiveTrack _ | .cycleActiveTrack
  | .toggleMute _ | .toggleHidden _ | .setBpm _ => false
  | _ => true

/-- The events that are about anything but notes. -/
def Event.sparesNotes : Event α → Bool
  | .exportMidi _ | .setActiveTrack _ | .cycleActiveTrack | .toggleMute _ | .toggleHidden _
  | .setBpm _ | .setSnap _ | .setTool _ | .gridMove _ | .gridCancel | .scrollPitch _
  | .centerOn _ _ | .setLane _ => true
  | _ => false

namespace Studio

variable {σ : Type} [Scalar α] [NumberText α] [SoundOutput σ α]

theorem next_keeps (s : Studio σ α) {e : Event α} (he : e.sparesNotes = true) :
    s.session.Keeps (s.next e).session := by
  cases e with
  | setActiveTrack id => exact (s.session.setsTracks_setActiveTrack id).keeps
  | cycleActiveTrack => exact s.session.setsTracks_cycleActiveTrack.keeps
  | toggleMute id => exact (s.session.setsTracks_toggleMute id).keeps
  | toggleHidden id => exact (s.session.setsTracks_toggleHidden id).keeps
  | setBpm bpm => exact s.session.keeps_setBpm bpm
  | exportMidi service | setSnap quantum | setTool tool | gridMove p | gridCancel
  | scrollPitch semitones | centerOn center rows | setLane lane =>
      exact ⟨rfl, rfl, rfl, rfl, rfl⟩
  | _ => exact Bool.noConfusion he

theorem next_editsNotes (s : Studio σ α) {e : Event α} (he : e.isAboutNotes = true) :
    s.session.EditsNotes (s.next e).session := by
  cases e with
  | undo => exact s.session.editsNotes_undo
  | redo => exact s.session.editsNotes_redo
  | deleteNote id => exact s.session.editsNotes_deleteNote id
  | deleteSelected => exact s.session.editsNotes_deleteSelected
  | pasteAt beat => exact s.session.editsNotes_pasteAt beat
  | exportMidi service => exact ⟨⟨rfl, rfl, rfl, rfl⟩, .inr rfl⟩
  | gridDown p button => exact s.gestures.editsNotes_pointerDown s.session p button
  | gridUp => exact s.gestures.editsNotes_pointerUp s.session
  | laneDown beat y => exact s.velocities.editsNotes_pointerDown s.session beat y
  | laneMove y => exact s.velocities.editsNotes_apply s.session y
  | laneUp => exact s.velocities.editsNotes_pointerUp s.session
  | laneCancel => exact s.velocities.editsNotes_cancel s.session
  | applyPiece piece | importText text | generate service prompt | setActiveTrack id
  | cycleActiveTrack | toggleMute id | toggleHidden id | setBpm bpm =>
      exact Bool.noConfusion he
  | _ => exact ⟨⟨rfl, rfl, rfl, rfl⟩, .inl rfl⟩

/-- The service is asked within one event, so between two of them it is as before or not
asked any more. -/
theorem next_remote (s : Studio σ α) (e : Event α) :
    (s.next e).session.remote = s.session.remote ∨ (s.next e).session.remote = .idle := by
  by_cases he : e.isAboutNotes = true
  · exact (s.next_editsNotes he).remote
  · cases e with
    | applyPiece piece => exact .inl (s.session.applyPiece_remote piece)
    | importText text => exact .inl (s.session.applyResult_remote _)
    | generate service prompt =>
        exact .inr (Session.applyResult_remote { s.session with remote := .idle } _)
    | setActiveTrack id => exact .inl (s.session.setsTracks_setActiveTrack id).remote
    | cycleActiveTrack => exact .inl s.session.setsTracks_cycleActiveTrack.remote
    | toggleMute id => exact .inl (s.session.setsTracks_toggleMute id).remote
    | toggleHidden id => exact .inl (s.session.setsTracks_toggleHidden id).remote
    | setBpm bpm => exact .inl rfl
    | _ => exact absurd rfl he

end Studio

end NoteRoll
