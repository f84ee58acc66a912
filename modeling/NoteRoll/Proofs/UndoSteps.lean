import NoteRoll.Decimal.Shortest
import NoteRoll.Proofs.HistoryMirror

/-!
# One edit is one undo step

An edit is what a user does in one go: a press, a path and a release on the
grid or in the lane, or a single command. Most of its events tell the history
nothing. The ones that do are told by two different routes, by a commit of new
notes and by a commit of the notes as they were rewritten in place, and the
theorem is that an edit takes exactly one of them exactly once.

All edits have one form, which is the whole proof: a run of events without a
mark, and one event that commits. The run leaves the history alone, so that
the commit lands on the snapshot from before the edit, and if nothing was left
uncommitted then, that snapshot is the notes the edit began with. A full
history changes nothing, because a commit forgets at the far end.

The case with something in it is the drag on the grid: that the release
commits depends on the press, because a rectangle of selection is dragged by
the same three handlers. A path never turns one kind of gesture into another.
-/

namespace NoteRoll

variable {σ α : Type}

/-- What a user does in one go. -/
inductive Edit (α : Type) where
  /-- A press on the grid that deletes at once. -/
  | press (p : Point α) (button : PointerButton)
  | drag (p : Point α) (button : PointerButton) (path : List (Point α))
  | velocityDrag (beat y : α) (path : List α)
  | deleteNote (id : NoteId)
  | deleteSelected
  | pasteAt (beat : α)
  | importText (text : String)
  | generate (service : ComposeService α) (prompt : String)

/-- The events of an edit, in order. -/
def Edit.events : Edit α → List (Event α)
  | .press p button => [.gridDown p button]
  | .drag p button path => .gridDown p button :: path.map .gridMove ++ [.gridUp]
  | .velocityDrag beat y path => .laneDown beat y :: path.map .laneMove ++ [.laneUp]
  | .deleteNote id => [.deleteNote id]
  | .deleteSelected => [.deleteSelected]
  | .pasteAt beat => [.pasteAt beat]
  | .importText text => [.importText text]
  | .generate service prompt => [.generate service prompt]

/-- A step back and a step forth around a commit. -/
theorem Session.undo_redo_commit {s : Session α} {h : History (List (Note α))}
    {notes : List (Note α)} (hs : s.history = h.commit notes) :
    s.undo.1 = true ∧ s.undo.2.document.notes = h.present ∧
      s.undo.2.redo.1 = true ∧ s.undo.2.redo.2.document.notes = notes := by
  rw [undo, hs, History.undo?_commit]
  exact ⟨rfl, rfl, rfl, rfl⟩

variable [Scalar α] [NumberText α] [SoundOutput σ α]

namespace Studio

theorem marks_append (s : Studio σ α) (es fs : List (Event α)) :
    s.marks (es ++ fs) = s.marks es ++ (s.run es).marks fs := by
  induction es generalizing s with
  | nil => rfl
  | cons e es ih =>
      rw [List.cons_append, marks, marks, ih, run_cons, List.cons_append]

theorem Reachable.run {s : Studio σ α} (h : s.Reachable) (events : List (Event α)) :
    (s.run events).Reachable := by
  obtain ⟨d, fresh, before, hfresh, rfl⟩ := h
  exact ⟨d, fresh, before ++ events, hfresh, (run_append _ _ _).symm⟩

/-- None of some events means anything to the history. -/
def Unmarked (s : Studio σ α) (es : List (Event α)) : Prop := ∀ m ∈ s.marks es, m = .stay

theorem unmarked_cons {s : Studio σ α} {e : Event α} {es : List (Event α)} :
    s.Unmarked (e :: es) ↔ s.mark e = .stay ∧ (s.next e).Unmarked es := by
  simp only [Unmarked, marks, List.forall_mem_cons]

/-- The history moves only at marks. -/
theorem Unmarked.history_eq {s : Studio σ α} (hs : s.Reachable) {es : List (Event α)}
    (h : s.Unmarked es) : (s.run es).session.history = s.session.history := by
  induction es generalizing s with
  | nil => rfl
  | cons e es ih =>
      obtain ⟨hmark, hrest⟩ := unmarked_cons.1 h
      have hnext : (s.next e).Reachable := hs.run [e]
      have hmoves := (s.step_moves hs.lives e).moves
      rw [run_cons, ih hnext hrest, hmoves.history_eq, hmark]
      rfl

/-- A path on the grid touches nothing but the gesture, and keeps its kind. -/
theorem run_gridMoves (s : Studio σ α) (path : List (Point α)) :
    s.Unmarked (path.map .gridMove) ∧
      (s.run (path.map .gridMove)).gestures.gesture.changesNotes =
        s.gestures.gesture.changesNotes := by
  induction path generalizing s with
  | nil => exact ⟨fun m hm => absurd hm List.not_mem_nil, rfl⟩
  | cons p path ih =>
      obtain ⟨hmarks, hkind⟩ := ih (s.next (.gridMove p))
      refine ⟨unmarked_cons.2 ⟨rfl, hmarks⟩, hkind.trans ?_⟩
      exact (s.gestures.pointerMove_kind s.session p).2

/-- A path in the lane keeps the note that is edited. -/
theorem run_laneMoves (s : Studio σ α) (path : List α) :
    s.Unmarked (path.map .laneMove) ∧
      (s.run (path.map .laneMove)).velocities = s.velocities := by
  induction path generalizing s with
  | nil => exact ⟨fun m hm => absurd hm List.not_mem_nil, rfl⟩
  | cons y path ih =>
      obtain ⟨hmarks, hsame⟩ := ih (s.next (.laneMove y))
      exact ⟨unmarked_cons.2 ⟨rfl, hmarks⟩, hsame⟩

/-- A path on the grid that a press began, up to its release. -/
theorem run_drag {s : Studio σ α} {p : Point α} {button : PointerButton}
    (h : s.reply (.gridDown p button) = .gesture .started) (path : List (Point α)) :
    s.Unmarked (.gridDown p button :: path.map .gridMove) ∧
      (s.run (.gridDown p button :: path.map .gridMove)).gestures.gesture.changesNotes =
        (s.next (.gridDown p button)).gestures.gesture.changesNotes := by
  obtain ⟨hmarks, hkind⟩ := run_gridMoves (s.next (.gridDown p button)) path
  refine ⟨unmarked_cons.2 ⟨?_, hmarks⟩, hkind⟩
  rw [mark, h]
  rfl

theorem mark_gridUp (s : Studio σ α) :
    s.mark .gridUp = if s.gestures.gesture.changesNotes then .commit else .stay := by
  show Event.mark (α := α) .gridUp (.gesture (s.gestures.pointerUp s.session).1) = _
  have hiff := s.gestures.pointerUp_committed_iff s.session
  split
  · next h => rw [hiff.2 h]; rfl
  · next h =>
      cases hout : (s.gestures.pointerUp s.session).1 with
      | committed => exact absurd (hiff.1 hout) h
      | _ => rfl

/-- The edit records a commit: the press, the drag or the command took hold. -/
def Records (s : Studio σ α) : Edit α → Prop
  | .press p button => ∃ id, s.reply (.gridDown p button) = .gesture (.deleted id)
  | .drag p button _ =>
    s.reply (.gridDown p button) = .gesture .started ∧
      (s.next (.gridDown p button)).gestures.gesture.changesNotes = true
  | .velocityDrag beat y _ => s.reply (.laneDown beat y) = .flag true
  | .deleteNote id => s.reply (.deleteNote id) = .flag true
  | .deleteSelected => ∃ n, s.reply .deleteSelected = .count (n + 1)
  | .pasteAt beat => ∃ n, s.reply (.pasteAt beat) = .count (n + 1)
  | .importText text => ∃ n, s.reply (.importText text) = .taken (some n)
  | .generate service prompt => ∃ n, s.reply (.generate service prompt) = .taken (some n)

theorem records_velocityDrag {s : Studio σ α} {beat y : α} {path : List α} :
    s.Records (.velocityDrag beat y path) ↔
      (s.velocities.pointerDown s.session beat y).1 = true :=
  ⟨fun h => Reply.flag.inj h, fun h => congrArg Reply.flag h⟩

/-- A drag that took hold of a velocity ends with a commit. -/
theorem mark_laneUp_of_grabbed {s : Studio σ α} {beat y : α}
    (h : (s.velocities.pointerDown s.session beat y).1 = true) (path : List α) :
    (s.run (.laneDown beat y :: path.map .laneMove)).mark .laneUp = .commit := by
  have hediting : (s.next (.laneDown beat y)).velocities.editing.isSome = true := by
    show (s.velocities.pointerDown s.session beat y).2.1.editing.isSome = true
    rcases s.velocities.pointerDown_cases s.session beat y with ⟨-, hdown⟩ | ⟨n, -, hdown⟩
    · rw [hdown] at h
      cases h
    · rw [hdown]
      rfl
  rw [← (run_laneMoves (s.next (.laneDown beat y)) path).2] at hediting
  show Event.mark (α := α) .laneUp (.flag (VelocityEditor.pointerUp _ _).1) = .commit
  rw [VelocityEditor.pointerUp]
  split
  · next hnone =>
      rw [run_cons] at hnone
      rw [hnone] at hediting
      cases hediting
  · rfl

/-- The one form of all edits: events without a mark, and one that commits. -/
theorem Records.split {s : Studio σ α} {edit : Edit α} (h : s.Records edit) :
    ∃ es e, edit.events = es ++ [e] ∧ s.Unmarked es ∧ (s.run es).mark e = .commit := by
  have hsingle : ∀ e : Event α, edit.events = [e] → s.mark e = .commit →
      ∃ es e, edit.events = es ++ [e] ∧ s.Unmarked es ∧ (s.run es).mark e = .commit :=
    fun e he hm => ⟨[], e, he, fun m hmem => absurd hmem List.not_mem_nil, hm⟩
  cases edit with
  | press p button =>
      obtain ⟨id, hr⟩ := h
      exact hsingle _ rfl (by rw [mark, hr]; rfl)
  | drag p button path =>
      obtain ⟨hstarted, hkind⟩ := h
      obtain ⟨hmarks, hsame⟩ := run_drag hstarted path
      exact ⟨_, .gridUp, rfl, hmarks, by rw [mark_gridUp, hsame, hkind]; rfl⟩
  | velocityDrag beat y path =>
      have hmarks := (run_laneMoves (s.next (.laneDown beat y)) path).1
      exact ⟨.laneDown beat y :: path.map .laneMove, .laneUp, rfl, unmarked_cons.2 ⟨rfl, hmarks⟩,
        mark_laneUp_of_grabbed (records_velocityDrag.1 h) path⟩
  | deleteNote id => exact hsingle _ rfl (by rw [mark, h]; rfl)
  | deleteSelected =>
      obtain ⟨n, hr⟩ := h
      exact hsingle _ rfl (by rw [mark, hr]; rfl)
  | pasteAt beat =>
      obtain ⟨n, hr⟩ := h
      exact hsingle _ rfl (by rw [mark, hr]; rfl)
  | importText text =>
      obtain ⟨n, hr⟩ := h
      exact hsingle _ rfl (by rw [mark, hr]; rfl)
  | generate service prompt =>
      obtain ⟨n, hr⟩ := h
      exact hsingle _ rfl (by rw [mark, hr]; rfl)

/-- An event that did nothing has no mark. -/
theorem mark_of_isNothing {s : Studio σ α} {e : Event α}
    (h : (s.reply e).isNothing = true) : s.mark e = .stay := by
  rw [mark, Event.mark.eq_def]
  split
  all_goals first
    | rfl
    | exact Bool.noConfusion h
    | (rename_i hr; rw [hr] at h; exact Bool.noConfusion h)

/-- From any reachable state in which nothing is shown that is not committed,
an edit that takes hold moves the history once, by one commit of the notes it
leaves; the next undo brings back the notes from before it began, and a redo
those it left. In any reachable state an event that did nothing, and the
dragging of a rectangle of selection, leave the history as it was. -/
theorem edit_is_one_undo_step {s : Studio σ α} (hs : s.Reachable) :
    (s.session.IsSettled → ∀ edit : Edit α, s.Records edit →
      let t := s.run edit.events
      (s.marks edit.events).filter (· ≠ .stay) = [.commit] ∧
      t.session.history = s.session.history.commit t.session.document.notes ∧
      t.session.undo.1 = true ∧
      t.session.undo.2.document.notes = s.session.document.notes ∧
      t.session.undo.2.redo.1 = true ∧
      t.session.undo.2.redo.2.document.notes = t.session.document.notes) ∧
    (∀ e : Event α, (s.reply e).isNothing = true →
      (s.next e).session.history = s.session.history) ∧
    ∀ p button path, s.reply (.gridDown p button) = .gesture .started →
      (s.next (.gridDown p button)).gestures.gesture.changesNotes = false →
      (s.run (Edit.drag p button path).events).session.history = s.session.history := by
  refine ⟨fun hsettled edit hrec => ?_, fun e he => ?_, fun p button path hr hkind => ?_⟩
  · obtain ⟨es, e, hevents, hmarks, hcommit⟩ := hrec.split
    have hmoves := ((s.run es).step_moves (hs.run es).lives e).moves
    have hhistory : (s.run edit.events).session.history =
        s.session.history.commit (s.run edit.events).session.document.notes := by
      rw [hevents, run_append, run_cons, run_nil, hmoves.history_eq, hcommit,
        hmarks.history_eq hs]
      rfl
    obtain ⟨hundo, hback, hredo, hforth⟩ := Session.undo_redo_commit hhistory
    refine ⟨?_, hhistory, hundo, hback.trans hsettled.symm, hredo, hforth⟩
    have hnone : (s.marks es).filter (· ≠ .stay) = [] :=
      List.filter_eq_nil_iff.2 fun m hm => by simp only [hmarks m hm, ne_eq,
        not_true_eq_false, decide_false, Bool.false_eq_true, not_false_eq_true]
    rw [hevents, marks_append, List.filter_append, hnone, marks, hcommit]
    rfl
  · rw [(s.step_moves hs.lives e).moves.history_eq, mark_of_isNothing he]
    rfl
  · obtain ⟨hmarks, hsame⟩ := run_drag hr path
    have hall : s.Unmarked (Edit.drag p button path).events := by
      intro m hm
      rw [Edit.events, marks_append] at hm
      rcases List.mem_append.1 hm with hm | hm
      · exact hmarks m hm
      · rw [List.mem_singleton.1 hm, mark_gridUp, hsame, hkind]
        rfl
    exact hall.history_eq hs

/-- A session whose history is full. -/
def worn : Studio (Recorder Float) Float :=
  let document := Document.standard.replaceNotes [.ofFields 1 60 0.0 1.0 40 "t_piano"]
  run ⟨Session.start document, .ofGrid .standard 6.0, .ofLane .standard,
    .ofTiming .standard, .start true 0.0⟩ (List.replicate 60 .commitCurrent)

/-- A drag in the lane of that session is undone in one step like any other. -/
theorem worn_velocityDrag_undone :
    worn.Reachable ∧ worn.session.history.size = History.capacity ∧
    worn.session.IsSettled ∧ worn.Records (.velocityDrag 0.5 30.0 [10.0, 20.0]) ∧
    let t := worn.run (Edit.velocityDrag 0.5 30.0 [10.0, 20.0]).events
    t.session.history = worn.session.history.commit t.session.document.notes ∧
    t.session.undo.1 = true ∧
    t.session.undo.2.document.notes = worn.session.document.notes := by
  have hreach : worn.Reachable := ⟨_, _, _, rfl, rfl⟩
  have hsettled : worn.session.IsSettled := rfl
  have hgrabbed : (worn.velocities.pointerDown worn.session 0.5 30.0).1 = true := by
    decide +kernel
  have hrec : worn.Records (.velocityDrag 0.5 30.0 [10.0, 20.0]) := by
    rw [records_velocityDrag]
    exact hgrabbed
  obtain ⟨-, hcommit, hundo, hback, -⟩ :=
    (edit_is_one_undo_step hreach).1 hsettled _ hrec
  exact ⟨hreach, by decide +kernel, hsettled, hrec, hcommit, hundo, hback⟩

end Studio

end NoteRoll
