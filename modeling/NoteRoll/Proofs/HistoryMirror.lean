import NoteRoll.Proofs.Frames

/-!
# The history mirrors the document

The present snapshot and the notes of the document are kept apart, and one way
of editing touches only one of them: a drag in the velocity lane shows a
velocity in the document at once and tells the history nothing until it ends.
Any other operation may run underneath it. So what all interleavings keep is
not that the two lists are equal but that they have the same shape, which is
everything of a note but its velocity.

The whole argument is `step_moves`: each event moves a session in one of five
ways, and its mark says which. A commit, a step back and a step forth make the
two lists equal whatever they were before; a preview changes one velocity; all
else leaves both alone. `notes_mirror_history` is an induction over that.

The one event whose mark needs more than its own code is the deletion of the
selected notes. It commits whenever something is selected and answers with the
number of notes that went, so a selection of notes that are gone would commit
and answer zero. That the selection never outlives its notes is therefore
carried through the same case analysis.
-/

namespace NoteRoll

variable {α : Type}

/-- Everything of a note but its velocity. -/
def Note.shape (n : Note α) : NoteId × Nat × α × α × TrackId :=
  (n.id, n.pitch, n.start, n.duration, n.track)

theorem Document.setVelocity_shape (d : Document α) (id : NoteId) (velocity : Nat) :
    (d.setVelocity id velocity).notes.map Note.shape = d.notes.map Note.shape := by
  refine map_updateFirst ?_ d.notes
  exact fun _ => rfl

theorem Document.setVelocity_ids (d : Document α) (id : NoteId) (velocity : Nat) :
    (d.setVelocity id velocity).notes.map (·.id) = d.notes.map (·.id) := by
  refine map_updateFirst ?_ d.notes
  exact fun _ => rfl

theorem Selection.Lives.congr {selection : Selection} {d d' : Document α}
    (h : selection.Lives d) (hids : d'.notes.map (·.id) = d.notes.map (·.id)) :
    selection.Lives d' := by
  intro id hid
  rw [Document.contains_iff, hids, ← Document.contains_iff]
  exact h id hid

/-- Nothing is shown that is not committed. -/
def Session.IsSettled (s : Session α) : Prop := s.document.notes = s.history.present

/-- The five ways in which an event of a mark can move a session. -/
inductive Session.Moves (s : Session α) : Mark → Session α → Prop where
  | still {s' : Session α} (history : s'.history = s.history)
      (notes : s'.document.notes = s.document.notes) : Moves s .stay s'
  | previewed {s' : Session α} (id : NoteId) (velocity : Nat)
      (history : s'.history = s.history)
      (notes : s'.document.notes = (s.document.setVelocity id velocity).notes) :
      Moves s .stay s'
  | committed {s' : Session α}
      (history : s'.history = s.history.commit s'.document.notes) : Moves s .commit s'
  | undone {s' : Session α} (history : s.history.undo? = some s'.history)
      (notes : s'.document.notes = s'.history.present) : Moves s .undo s'
  | redone {s' : Session α} (history : s.history.redo? = some s'.history)
      (notes : s'.document.notes = s'.history.present) : Moves s .redo s'

namespace Session.Moves

variable {s s' : Session α} {m : Mark}

/-- The history moves just as the mark says. -/
theorem history_eq (h : s.Moves m s') : s'.history = m.after s.history s'.document.notes := by
  cases h with
  | still history notes => exact history
  | previewed id velocity history notes => exact history
  | committed history => exact history
  | undone history notes => rw [Mark.after, history]; rfl
  | redone history notes => rw [Mark.after, history]; rfl

/-- Whatever was shown before, a mark settles the session. -/
theorem settled (h : s.Moves m s') (hm : m ≠ .stay) : s'.IsSettled := by
  cases h with
  | still history notes => exact absurd rfl hm
  | previewed id velocity history notes => exact absurd rfl hm
  | committed history => rw [IsSettled, history]; rfl
  | undone history notes => exact notes
  | redone history notes => exact notes

/-- Every move keeps the shapes of the two lists together. -/
theorem shape_eq (h : s.Moves m s')
    (hs : s.document.notes.map Note.shape = s.history.present.map Note.shape) :
    s'.document.notes.map Note.shape = s'.history.present.map Note.shape := by
  cases h with
  | still history notes => rw [history, notes, hs]
  | previewed id velocity history notes =>
      rw [history, notes, Document.setVelocity_shape, hs]
  | committed history => rw [history]; rfl
  | undone history notes => rw [notes]
  | redone history notes => rw [notes]

end Session.Moves

/-- A move that leaves no identity selected but those in use. -/
structure Session.Step (s : Session α) (m : Mark) (s' : Session α) : Prop where
  moves : s.Moves m s'
  lives : s'.selection.Lives s'.document

namespace Session

theorem Keeps.step {s s' : Session α} (h : s.Keeps s')
    (hlive : s.selection.Lives s.document) : s.Step .stay s' :=
  ⟨.still h.history h.notes, h.selection ▸ hlive.congr (by rw [h.notes])⟩

theorem Keeps.settled {s s' : Session α} (h : s.Keeps s') (hs : s.IsSettled) :
    s'.IsSettled := by
  rw [IsSettled, h.notes, h.history]
  exact hs

theorem Step.refl {s : Session α} (hlive : s.selection.Lives s.document) : s.Step .stay s :=
  (Keeps.refl s).step hlive

theorem Step.preview {s : Session α} (hlive : s.selection.Lives s.document) (id : NoteId)
    (velocity : Nat) : s.Step .stay (s.preview id velocity) :=
  ⟨.previewed id velocity rfl rfl, hlive.congr (Document.setVelocity_ids _ _ _)⟩

/-- An operation that does nothing or leaves a mark keeps a session settled. -/
theorem settled_of_step {β : Type} {s : Session α} {r : β × Session α} {nothing : β}
    {P : Prop} {m : Mark} (hm : m ≠ .stay) (h : r = (nothing, s) ∨ P ∧ s.Step m r.2)
    (hs : s.IsSettled) : r.2.IsSettled := by
  rcases h with hnothing | ⟨-, hstep⟩
  · rw [hnothing]
    exact hs
  · exact hstep.moves.settled hm

/-- An operation that does nothing or leaves a mark takes a step of the mark that its answer
tells, where to have done nothing tells none. -/
theorem Step.of_answer {β : Type} {s : Session α} {r : β × Session α} {nothing : β}
    {P : Prop} {m : Mark} (mark : β → Mark) (hlive : s.selection.Lives s.document)
    (h : r = (nothing, s) ∨ P ∧ s.Step m r.2) (hnothing : mark nothing = .stay)
    (hdone : P → mark r.1 = m) : s.Step (mark r.1) r.2 := by
  rcases h with rfl | ⟨hP, hstep⟩
  · rw [hnothing]
    exact .refl hlive
  · rw [hdone hP]
    exact hstep

theorem commitNotes_step (s : Session α) (notes : List (Note α)) :
    s.Step .commit (s.commitNotes notes) :=
  ⟨.committed rfl, Selection.lives_prune _ _⟩

theorem commitCurrent_step (s : Session α) : s.Step .commit s.commitCurrent :=
  ⟨.committed rfl, Selection.lives_prune _ _⟩

theorem undo_step (s : Session α) :
    s.undo = (false, s) ∨ s.undo.1 = true ∧ s.Step .undo s.undo.2 := by
  rw [undo]
  split
  · exact .inl rfl
  · next history h => exact .inr ⟨rfl, .undone h rfl, Selection.lives_prune _ _⟩

theorem redo_step (s : Session α) :
    s.redo = (false, s) ∨ s.redo.1 = true ∧ s.Step .redo s.redo.2 := by
  rw [redo]
  split
  · exact .inl rfl
  · next history h => exact .inr ⟨rfl, .redone h rfl, Selection.lives_prune _ _⟩

theorem deleteNote_step (s : Session α) (id : NoteId) :
    s.deleteNote id = (false, s) ∨
      (s.deleteNote id).1 = true ∧ s.Step .commit (s.deleteNote id).2 := by
  rw [deleteNote]
  split
  · exact .inr ⟨rfl, s.commitNotes_step _⟩
  · exact .inl rfl

theorem deleteSelected_step (s : Session α) :
    s.deleteSelected = (0, s) ∨
      s.selection.ids ≠ [] ∧ s.Step .commit s.deleteSelected.2 := by
  rw [deleteSelected]
  split
  · exact .inl rfl
  · next h =>
      refine .inr ⟨fun hnil => h ?_, .committed rfl, Selection.lives_empty _⟩
      rw [Selection.isEmpty, hnil]
      rfl

/-- Where something is selected and still there, something goes and is counted. -/
theorem deleteSelected_count {s : Session α} (hlive : s.selection.Lives s.document)
    (hsome : s.selection.ids ≠ []) : ∃ n, s.deleteSelected.1 = n + 1 := by
  obtain ⟨id, hid⟩ := List.exists_mem_of_ne_nil _ hsome
  obtain ⟨n, hn, rfl⟩ := List.mem_map.1 (Document.contains_iff.1 (hlive id hid))
  have hgone : ¬ (!s.selection.contains n.id) = true := by
    rw [Selection.contains, List.contains_iff_mem.2 hid]
    exact Bool.false_ne_true
  have hlt : (s.document.notes.filter fun n => !s.selection.contains n.id).length <
      s.document.notes.length := List.length_filter_lt_length_iff_exists.2 ⟨n, hn, hgone⟩
  refine ⟨s.deleteSelected.1 - 1, (Nat.succ_pred_eq_of_pos ?_).symm⟩
  rw [deleteSelected]
  split
  · next h => exact absurd (List.isEmpty_iff.1 h) hsome
  · exact Nat.sub_pos_of_lt hlt

theorem takeTracks_history (s : Session α) (tracks : List Track) :
    (s.takeTracks tracks).history = s.history := by
  rw [takeTracks]
  split <;> rfl

variable [Scalar α]

theorem pasteAt_step (s : Session α) (beat : α) :
    s.pasteAt beat = (0, s) ∨
      (∃ n, (s.pasteAt beat).1 = n + 1) ∧ s.Step .commit (s.pasteAt beat).2 := by
  rw [pasteAt.eq_def]
  split
  · exact .inl rfl
  · next first others hclip =>
      refine .inr ⟨⟨others.length, ?_⟩, .committed rfl, fun id hid => ?_⟩
      · simp only [hclip, List.length_mapIdx, List.length_cons]
      · refine Document.contains_iff.2 ?_
        have hid := Selection.mem_ofList.1 hid
        show id ∈ (s.document.notes ++ _).map (·.id)
        rw [List.map_append]
        exact List.mem_append_right _ hid

theorem applyPiece_step (s : Session α) (p : Piece α) : s.Step .commit (s.applyPiece p).2 := by
  refine ⟨.committed ?_, Selection.lives_empty _⟩
  show History.commit (Session.takeTracks _ _).history _ = _
  rw [takeTracks_history]
  rfl

theorem applyResult_step {ε : Type} (s : Session α) (r : Except ε (Piece α)) :
    ((s.applyResult r).1.toOption = none ∧ (s.applyResult r).2 = s) ∨
      (∃ n, (s.applyResult r).1.toOption = some n) ∧ s.Step .commit (s.applyResult r).2 := by
  cases r with
  | error e => exact .inl ⟨rfl, rfl⟩
  | ok p => exact .inr ⟨⟨_, rfl⟩, s.applyPiece_step p⟩

end Session

/-! ## The editors -/

section Editors

variable [Scalar α] {s : Session α}

theorem GestureEditor.pointerDown_step (hlive : s.selection.Lives s.document)
    (e : GestureEditor α) (p : Point α) (button : PointerButton) :
    ((∃ id, (e.pointerDown s p button).outcome = .deleted id) ∧
      s.Step .commit (e.pointerDown s p button).session) ∨
    ((e.pointerDown s p button).outcome = .ignored ∨
      (e.pointerDown s p button).outcome = .started) ∧
      s.Step .stay (e.pointerDown s p button).session := by
  rcases e.pointerDown_cases s p button with h | ⟨n, hn, h⟩ | h
  · rw [h]
    exact .inr ⟨.inl rfl, .refl hlive⟩
  · rw [h]
    refine .inl ⟨⟨n.id, rfl⟩, ?_⟩
    rcases s.deleteNote_step n.id with hfalse | ⟨-, hstep⟩
    · -- The note is there, so the deletion cannot have refused.
      have hthere := Document.contains_iff.2 (List.mem_map_of_mem (f := (·.id)) hn)
      rw [Session.deleteNote, if_pos hthere] at hfalse
      exact Bool.noConfusion (congrArg Prod.fst hfalse)
    · exact hstep
  · obtain ⟨selection, nextId, hsession, hlives⟩ := h.session
    refine .inr ⟨.inr h.outcome, ?_⟩
    rw [hsession]
    exact ⟨.still rfl rfl, (hlives hlive).congr rfl⟩

theorem GestureEditor.pointerUp_step (hlive : s.selection.Lives s.document)
    (e : GestureEditor α) :
    ((e.pointerUp s).1 = .committed ∧ s.Step .commit (e.pointerUp s).2.2) ∨
    (((e.pointerUp s).1 = .ignored ∨ ∃ count, (e.pointerUp s).1 = .selected count) ∧
      s.Step .stay (e.pointerUp s).2.2) := by
  rcases e.pointerUp_cases s with
    ⟨-, h⟩ | ⟨-, notes, selection, h, hlives⟩ | ⟨-, count, selection, h, hlives⟩
  · rw [h]
    exact .inr ⟨.inl rfl, .refl hlive⟩
  · rw [h]
    exact .inl ⟨rfl, .committed rfl, hlives⟩
  · rw [h]
    exact .inr ⟨.inr ⟨count, rfl⟩, .still rfl rfl, hlives⟩

theorem VelocityEditor.pointerDown_step (hlive : s.selection.Lives s.document)
    (e : VelocityEditor α) (beat y : α) : s.Step .stay (e.pointerDown s beat y).2.2 := by
  rcases e.pointerDown_cases s beat y with ⟨-, h⟩ | ⟨n, -, h⟩
  · rw [h]
    exact .refl hlive
  · rw [h]
    exact .preview hlive _ _

theorem VelocityEditor.pointerMove_step (hlive : s.selection.Lives s.document)
    (e : VelocityEditor α) (y : α) : s.Step .stay (e.pointerMove s y).2 := by
  show s.Step .stay (e.apply s y)
  rcases e.apply_cases s y with ⟨-, h⟩ | ⟨id, -, h⟩
  · rw [h]
    exact .refl hlive
  · rw [h]
    exact .preview hlive _ _

omit [Scalar α] in
theorem VelocityEditor.pointerUp_step (e : VelocityEditor α) :
    e.pointerUp s = (false, e, s) ∨
      (e.pointerUp s).1 = true ∧ s.Step .commit (e.pointerUp s).2.2 := by
  rcases e.pointerUp_cases s with ⟨-, h⟩ | ⟨-, h⟩
  · exact .inl h
  · rw [h]
    exact .inr ⟨rfl, s.commitCurrent_step⟩

omit [Scalar α] in
theorem VelocityEditor.cancel_step (hlive : s.selection.Lives s.document)
    (e : VelocityEditor α) : s.Step .stay (e.cancel s).2.2 := by
  rcases e.cancel_cases s with ⟨-, h⟩ | ⟨id, -, h⟩
  · rw [h]
    exact .refl hlive
  · rw [h]
    cases committed? s id with
    | none => exact .refl hlive
    | some velocity => exact .preview hlive _ _

end Editors

/-! ## Events and runs -/

namespace Studio

variable {σ : Type} [Scalar α] [NumberText α] [SoundOutput σ α]

theorem mark_of_sparesNotes (s : Studio σ α) {e : Event α} (he : e.sparesNotes = true) :
    s.mark e = .stay := by
  cases e with
  | exportMidi service | setActiveTrack id | cycleActiveTrack | toggleMute id | toggleHidden id
  | setBpm bpm | setSnap quantum | setTool tool | gridMove p | gridCancel | scrollPitch semitones
  | centerOn center rows | setLane lane => rfl
  | _ => exact Bool.noConfusion he

/-- What one event does to the session of a studio. -/
theorem step_moves (s : Studio σ α) (hlive : s.session.selection.Lives s.session.document)
    (e : Event α) : s.session.Step (s.mark e) (s.next e).session := by
  by_cases he : e.sparesNotes = true
  · rw [s.mark_of_sparesNotes he]
    exact (s.next_keeps he).step hlive
  · cases e with
    | commitNotes notes => exact s.session.commitNotes_step notes
    | commitCurrent => exact s.session.commitCurrent_step
    | undo =>
        exact .of_answer (r := s.session.undo) (fun done => Event.mark (α := α) .undo (.flag done))
          hlive s.session.undo_step rfl fun h => by rw [h]; rfl
    | redo =>
        exact .of_answer (r := s.session.redo) (fun done => Event.mark (α := α) .redo (.flag done))
          hlive s.session.redo_step rfl fun h => by rw [h]; rfl
    | deleteNote id =>
        exact .of_answer (r := s.session.deleteNote id)
          (fun done => Event.mark (α := α) (.deleteNote id) (.flag done)) hlive
          (s.session.deleteNote_step id) rfl fun h => by rw [h]; rfl
    | deleteSelected =>
        refine .of_answer (r := s.session.deleteSelected)
          (fun count => Event.mark (α := α) .deleteSelected (.count count)) hlive
          s.session.deleteSelected_step rfl fun hsome => ?_
        obtain ⟨n, hcount⟩ := Session.deleteSelected_count hlive hsome
        rw [hcount]
        rfl
    | select ids => exact ⟨.still rfl rfl, Selection.lives_prune _ _⟩
    | copySelected => exact ⟨.still rfl rfl, hlive⟩
    | pasteAt beat =>
        exact .of_answer (r := s.session.pasteAt beat)
          (fun count => Event.mark (.pasteAt beat) (.count count)) hlive
          (s.session.pasteAt_step beat) rfl fun ⟨n, hcount⟩ => by rw [hcount]; rfl
    | applyPiece piece => exact s.session.applyPiece_step piece
    | importText text =>
        show s.session.Step (Event.mark (α := α) (.importText text)
          (.taken (s.session.importText text).1.toOption)) (s.session.importText text).2
        rw [Session.importText]
        rcases s.session.applyResult_step (Piece.ofText text) with ⟨h, hs⟩ | ⟨⟨n, h⟩, hstep⟩
        · rw [h, hs]
          exact .refl hlive
        · rw [h]
          exact hstep
    | generate service prompt =>
        show s.session.Step (Event.mark (.generate service prompt)
          (.taken (s.session.generate service prompt).1.toOption))
          (s.session.generate service prompt).2
        rw [Session.generate]
        rcases Session.applyResult_step { s.session with remote := .idle }
          (service.generate prompt) with ⟨h, hs⟩ | ⟨⟨n, h⟩, hstep⟩
        · rw [h, hs]
          exact Session.Keeps.step ⟨rfl, rfl, rfl, rfl, rfl⟩ hlive
        · rw [h]
          exact ⟨.committed hstep.moves.history_eq, hstep.lives⟩
    | gridDown p button =>
        show s.session.Step (Event.mark (.gridDown p button)
          (.gesture (s.gestures.pointerDown s.session p button).outcome))
          (s.gestures.pointerDown s.session p button).session
        rcases GestureEditor.pointerDown_step hlive s.gestures p button with
          ⟨⟨id, h⟩, hstep⟩ | ⟨h | h, hstep⟩
        all_goals
          rw [h]
          exact hstep
    | gridUp =>
        show s.session.Step (Event.mark (α := α) .gridUp
          (.gesture (s.gestures.pointerUp s.session).1)) (s.gestures.pointerUp s.session).2.2
        rcases GestureEditor.pointerUp_step hlive s.gestures with
          ⟨h, hstep⟩ | ⟨h | ⟨count, h⟩, hstep⟩
        all_goals
          rw [h]
          exact hstep
    | laneDown beat y => exact VelocityEditor.pointerDown_step hlive s.velocities beat y
    | laneMove y => exact VelocityEditor.pointerMove_step hlive s.velocities y
    | laneUp =>
        show s.session.Step (Event.mark (α := α) .laneUp
          (.flag (s.velocities.pointerUp s.session).1)) (s.velocities.pointerUp s.session).2.2
        rcases s.velocities.pointerUp_step (s := s.session) with h | ⟨h, hstep⟩
        · rw [h]
          exact .refl hlive
        · rw [h]
          exact hstep
    | laneCancel => exact VelocityEditor.cancel_step hlive s.velocities
    | _ => exact absurd rfl he

/-- A selection never outlives its notes. -/
theorem Reachable.lives {s : Studio σ α} (h : s.Reachable) :
    s.session.selection.Lives s.session.document :=
  h.invariant (P := fun session => session.selection.Lives session.document)
    (fun d => Selection.lives_empty d) fun s e hlive => (s.step_moves hlive e).lives

/-- Document and history have the same notes but for velocities. -/
theorem Reachable.shape_eq {s : Studio σ α} (h : s.Reachable) :
    s.session.document.notes.map Note.shape =
      s.session.history.present.map Note.shape := by
  refine (h.invariant (P := fun session => session.selection.Lives session.document ∧
    session.document.notes.map Note.shape = session.history.present.map Note.shape)
    (fun d => ⟨Selection.lives_empty d, rfl⟩) fun s e hs => ?_).2
  have hstep := s.step_moves hs.1 e
  exact ⟨hstep.lives, hstep.moves.shape_eq hs.2⟩

theorem reachable_run (d : Document α) (gestures : GestureEditor α)
    (velocities : VelocityEditor α) (transport : Transport α) (output : σ)
    (events : List (Event α)) :
    (run ⟨Session.start d, gestures, velocities, transport, output⟩ events).Reachable :=
  ⟨d, _, events, rfl, rfl⟩

/-- Whatever is done to a session, in whatever order, the document and the
present snapshot list the same notes, which differ in nothing but velocities.
The history moves exactly at the events with a mark, and right after each of
these the two lists are equal. -/
theorem notes_mirror_history (d : Document α) (gestures : GestureEditor α)
    (velocities : VelocityEditor α) (transport : Transport α) (output : σ)
    (events : List (Event α)) :
    let s := run ⟨Session.start d, gestures, velocities, transport, output⟩ events
    s.session.document.notes.map Note.shape =
      s.session.history.present.map Note.shape ∧
    ∀ e, (s.next e).session.history =
        (s.mark e).after s.session.history (s.next e).session.document.notes ∧
      (s.mark e ≠ .stay →
        (s.next e).session.document.notes = (s.next e).session.history.present) := by
  intro s
  have hreach : s.Reachable := reachable_run d gestures velocities transport output events
  refine ⟨hreach.shape_eq, fun e => ?_⟩
  have hmoves := (s.step_moves hreach.lives e).moves
  exact ⟨hmoves.history_eq, hmoves.settled⟩

end Studio

end NoteRoll
