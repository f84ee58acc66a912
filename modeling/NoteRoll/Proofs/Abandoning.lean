import NoteRoll.Proofs.PointerCapture

/-!
# Abandoned drags

A drag that is abandoned leaves no trace. On the grid there is nothing to take back, since a
gesture keeps to itself until it is committed. In the lane there is: the velocity has been
written into the document all along, and it is taken back from the present snapshot.

That is the right velocity only as long as the snapshot stays the one that the drag began with.
Anything else may happen in the meantime, and the actions that would move the history are among
it. What saves the snapshot is that these are ignored while there is a drag; so the invariant
of a drag under way is about two states, the one at the press and the one it has come to, and
says that the history is the same in both and which velocity the notes differ in.
-/

namespace NoteRoll

namespace App

variable {σ α : Type}

/-- Nothing is dragged, gestured or edited, and nothing is uncommitted. -/
structure AtRest (a : App σ α) : Prop where
  drag : a.drag = none
  idle : a.studio.gestures.isIdle = true
  editing : a.studio.velocities.editing = none
  settled : a.session.document.notes = a.session.history.present

theorem AtRest.not_dragging {a : App σ α} (h : a.AtRest) : a.drag.isSome ≠ true := by
  rw [h.drag]
  exact Bool.false_ne_true

theorem Undisturbed.atRest {a b : App σ α} (hsame : Undisturbed a b) (h : a.AtRest) : b.AtRest :=
  ⟨hsame.drag.trans h.drag, hsame.idle.trans h.idle, hsame.editing.trans h.editing,
    hsame.settled h.settled⟩

/-- The drag, the note in the lane, the notes and the history are as they were. -/
structure Spares (a b : App σ α) : Prop where
  drag : b.drag = a.drag
  editing : b.studio.velocities.editing = a.studio.velocities.editing
  notes : b.session.document.notes = a.session.document.notes
  history : b.session.history = a.session.history

theorem Spares.refl (a : App σ α) : Spares a a := ⟨rfl, rfl, rfl, rfl⟩

theorem Spares.informTrack {a b : App σ α} (h : Spares a b) (state : Option Bool)
    (yes no : String) : Spares a (b.informTrack state yes no) := by
  rw [App.informTrack.eq_def]
  split
  · exact ⟨h.drag, h.editing, h.notes, h.history⟩
  · exact h

theorem spares_session (a : App σ α) {session : Session α} (h : a.session.Keeps session) :
    Spares a (a.withStudio { a.studio with session }) := ⟨rfl, rfl, h.notes, h.history⟩

/-- A drag that began in one state has come to another. -/
inductive Underway (a b : App σ α) : Prop where
  | onGrid (drag : b.drag = some .grid) (editing : b.studio.velocities.editing = none)
      (notes : b.session.document.notes = a.session.document.notes)
      (history : b.session.history = a.session.history)
  | onLane (id : NoteId) (velocity : Nat) (drag : b.drag = some .lane)
      (editing : b.studio.velocities.editing = some id)
      (notes : b.session.document.notes = revoiced id velocity a.session.document.notes)
      (history : b.session.history = a.session.history)

theorem Underway.dragging {a b : App σ α} (h : Underway a b) : b.drag.isSome = true := by
  cases h with
  | onGrid drag => rw [drag]; rfl
  | onLane id velocity drag => rw [drag]; rfl

theorem Underway.spared {a b c : App σ α} (h : Underway a b) (hsame : Spares b c) :
    Underway a c := by
  cases h with
  | onGrid drag editing notes history =>
      exact .onGrid (hsame.drag.trans drag) (hsame.editing.trans editing)
        (hsame.notes.trans notes) (hsame.history.trans history)
  | onLane id velocity drag editing notes history =>
      exact .onLane id velocity (hsame.drag.trans drag) (hsame.editing.trans editing)
        (hsame.notes.trans notes) (hsame.history.trans history)

variable [Scalar α] [SoundOutput σ α]

/-! ## The press -/

theorem pressGrid_underway {a : App σ α} (hrest : a.AtRest) {button : MouseButton}
    {col row : Nat} (hstarts : (a.pressGrid button col row).drag.isSome = true) :
    Underway a (a.pressGrid button col row) := by
  simp only [pressGrid, Studio.gridDown] at hstarts ⊢
  rcases a.studio.gestures.pointerDown_cases a.studio.session
    (a.pixelAt a.layout.grid col row)
    (pointerOf button) with hcase | ⟨n, -, hcase⟩ | hbegins
  · rw [hcase] at hstarts
    exact absurd hstarts hrest.not_dragging
  · rw [hcase] at hstarts
    exact absurd hstarts hrest.not_dragging
  · obtain ⟨selection, nextId, hsession, -⟩ := hbegins.session
    rw [hbegins.outcome, hsession]
    exact .onGrid rfl hrest.editing rfl rfl

omit [SoundOutput σ α] in
theorem pressLane_underway {a : App σ α} (hrest : a.AtRest) {col row : Nat}
    (hstarts : (a.pressLane col row).drag.isSome = true) :
    Underway a (a.pressLane col row) := by
  rcases a.studio.velocities.pointerDown_cases a.studio.session
    (a.grid.xToBeat (a.pixelAt a.layout.lane col row).x) (a.laneY row) with
    ⟨hnone, -⟩ | ⟨n, -, hcase⟩
  · rcases a.pressLane_cases col row with ⟨-, hsame⟩ | ⟨hnote, -⟩
    · rw [hsame] at hstarts
      exact absurd hstarts hrest.not_dragging
    · rw [laneNote?, session, hnone] at hnote
      cases hnote
  · simp only [pressLane, Studio.laneDown, hcase, if_true]
    exact .onLane n.id _ rfl rfl rfl rfl

theorem mouseDown_underway {a : App σ α} (hrest : a.AtRest) {button : MouseButton}
    {col row : Nat} (hstarts : (a.mouseDown button col row).drag.isSome = true) :
    Underway a (a.mouseDown button col row) := by
  -- A press on the ruler or on the tracks begins no drag.
  have hnone {b : App σ α} (hsame : Undisturbed a b) : b.drag.isSome ≠ true :=
    (hsame.atRest hrest).not_dragging
  rw [mouseDown] at hstarts ⊢
  split at hstarts
  · next hgrid =>
      rw [if_pos hgrid]
      exact pressGrid_underway hrest hstarts
  · next hgrid =>
      rw [if_neg hgrid]
      split at hstarts
      · next hlane =>
          rw [if_pos hlane]
          exact pressLane_underway hrest hstarts
      · split at hstarts
        · exact absurd hstarts (hnone (a.pressRuler_undisturbed col row))
        · split at hstarts
          · exact absurd hstarts (hnone (a.pressTracks_undisturbed row))
          · exact absurd hstarts (hnone (.refl a))

/-! ## Everything in between -/

variable [NumberText α]

theorem perform_spares (a : App σ α) {action : Action α} (hcancel : action ≠ .cancel)
    (hnotes : replacesNotes action = false) : Spares a (a.perform action) := by
  cases action with
  | cancel => exact absurd rfl hcancel
  | undo | redo | deleteSelected | paste => exact Bool.noConfusion hnotes
  | togglePlayback =>
      rw [perform]
      split <;> exact ⟨rfl, rfl, rfl, rfl⟩
  | nextTrack => exact a.spares_session a.session.setsTracks_cycleActiveTrack.keeps
  | toggleMute =>
      exact (a.spares_session (a.session.setsTracks_toggleMute _).keeps).informTrack _ _ _
  | toggleHidden =>
      exact (a.spares_session (a.session.setsTracks_toggleHidden _).keeps).informTrack _ _ _
  | adjustTempo change => exact a.spares_session (a.session.keeps_setBpm _)
  | write =>
      show Spares a a.write
      rw [write.eq_def]
      split
      · exact ⟨rfl, rfl, rfl, rfl⟩
      · split <;> exact ⟨rfl, rfl, rfl, rfl⟩
  | quit | rewind | scrollBeats | scrollPitch | copy | setTool | setSnap =>
      exact ⟨rfl, rfl, rfl, rfl⟩

/-- While there is a drag no action but the one that abandons it bears on it. -/
theorem handleAction_spares {a : App σ α} (hdrag : a.drag.isSome = true) {action : Action α}
    (hcancel : action ≠ .cancel) : Spares a (a.handleAction action) := by
  rw [handleAction, hdrag, Bool.true_and]
  split
  · exact .refl a
  · next hkept => exact a.perform_spares hcancel (Bool.eq_false_iff.2 hkept)

/-- The inputs through which a drag goes on. In the lane the pointer has to stay there. -/
def GoesOn (a : App σ α) : Input σ α → Prop
  | .mouse (.down _) _ _ | .mouse .up _ _ | .action .cancel => False
  | .mouse .drag col row => a.drag = some .lane → a.layout.lane.contains col row = true
  | _ => True

def GoesThrough [Splitter] (a : App σ α) : List (Input σ α) → Prop
  | [] => True
  | i :: is => a.GoesOn i ∧ (a.next i).GoesThrough is

omit [SoundOutput σ α] [NumberText α] in
theorem Underway.mouseDrag {a b : App σ α} (h : Underway a b) {col row : Nat}
    (hstays : b.drag = some .lane → b.layout.lane.contains col row = true) :
    Underway a (b.mouseDrag col row) := by
  cases h with
  | onGrid drag editing notes history =>
      rw [App.mouseDrag, drag]
      exact .onGrid drag editing notes history
  | onLane id velocity drag editing notes history =>
      rw [App.mouseDrag, drag]
      dsimp only
      rw [if_pos (hstays drag)]
      -- The next velocity takes the place of the one before, on the notes at the press.
      rcases b.studio.velocities.apply_cases b.studio.session (b.laneY row) with
        ⟨hnone, -⟩ | ⟨id', hid', happly⟩
      · rw [hnone] at editing
        cases editing
      · obtain rfl : id' = id := Option.some.inj (hid'.symm.trans editing)
        refine .onLane id' (b.studio.velocities.lane.velocityAt (b.laneY row)) drag editing ?_ ?_
        · show (b.studio.velocities.apply b.studio.session (b.laneY row)).document.notes = _
          rw [happly, ← revoiced_revoiced id' _ velocity, ← notes]
          rfl
        · show (b.studio.velocities.apply b.studio.session (b.laneY row)).history = _
          rw [happly]
          exact history

theorem Underway.next [Splitter] {a b : App σ α} (h : Underway a b) {i : Input σ α} (hon : b.GoesOn i) :
    Underway a (b.next i) := by
  cases i with
  | action action =>
      refine h.spared (handleAction_spares h.dragging ?_)
      rintro rfl
      exact hon
  | mouse event col row =>
      cases event with
      | down button => exact hon.elim
      | up => exact hon.elim
      | drag => exact h.mouseDrag hon
      | wheel up shift =>
          have hscrolls : Spares b (b.handleMouse (.wheel up shift) col row) := by
            rw [handleMouse.eq_def]
            cases up <;> cases shift <;> exact handleAction_spares h.dragging (by rintro ⟨⟩)
          exact h.spared hscrolls
      | other => exact h
  | resize screen =>
      refine h.spared ?_
      show Spares b (b.resize screen)
      rw [resize]
      split
      · exact .refl b
      · exact ⟨rfl, rfl, rfl, rfl⟩
  | tick time => exact h.spared ⟨rfl, rfl, rfl, rfl⟩
  | elapse change => exact h.spared ⟨rfl, rfl, rfl, rfl⟩

theorem Underway.run [Splitter] {a b : App σ α} (h : Underway a b) {inputs : List (Input σ α)}
    (hon : b.GoesThrough inputs) : Underway a (b.run inputs) := by
  induction inputs generalizing b with
  | nil => exact h
  | cons i is ih => exact ih (h.next hon.1) hon.2

/-! ## The end -/

theorem Underway.cancel {a b : App σ α} (hrest : a.AtRest) (h : Underway a b) :
    (b.handleAction .cancel).AtRest ∧
      (b.handleAction .cancel).session.document.notes = a.session.document.notes ∧
      (b.handleAction .cancel).session.history = a.session.history := by
  have hback : (b.handleAction .cancel).session.IsSettled ∧
      (b.handleAction .cancel).session.history = a.session.history := by
    rw [handleAction_cancel]
    show Session.IsSettled (b.studio.velocities.cancel b.studio.session).2.2 ∧
      (b.studio.velocities.cancel b.studio.session).2.2.history = _
    cases h with
    | onGrid drag editing notes history =>
        rcases b.studio.velocities.cancel_cases b.studio.session with ⟨-, hsame⟩ | ⟨id, hid, -⟩
        · rw [hsame]
          refine ⟨notes.trans (hrest.settled.trans ?_), history⟩
          exact congrArg History.present history.symm
        · rw [hid] at editing
          cases editing
    | onLane id velocity drag editing notes history =>
        refine ⟨(VelocityEditor.cancel_settled_iff editing).2 ⟨velocity, ?_⟩, ?_⟩
        · show b.session.document.notes = revoiced id velocity b.session.history.present
          rw [notes, hrest.settled, history]
        · rw [VelocityEditor.cancel_history]
          exact history
  obtain ⟨hsettled, hhistory⟩ := hback
  refine ⟨?_, ?_, hhistory⟩
  · refine ⟨?_, ?_, ?_, hsettled⟩ <;> rw [handleAction_cancel]
    · rfl
    · exact b.studio.velocities.cancel_editing b.studio.session
  · calc (b.handleAction .cancel).session.document.notes
        = (b.handleAction .cancel).session.history.present := hsettled
      _ = a.session.history.present := congrArg History.present hhistory
      _ = a.session.document.notes := hrest.settled.symm

/-- A press that begins a drag, anything that lets the drag go on, and then the drag abandoned:
notes and history are those from before the press, and the application is at rest again. -/
theorem cancel_restores [Splitter] {a : App σ α} (hrest : a.AtRest) {button : MouseButton}
    {col row : Nat}
    (hstarts : (a.handleMouse (.down button) col row).drag.isSome = true)
    {inputs : List (Input σ α)}
    (hon : (a.handleMouse (.down button) col row).GoesThrough inputs) :
    let b := ((a.handleMouse (.down button) col row).run inputs).handleAction .cancel
    b.session.document.notes = a.session.document.notes ∧
      b.session.history = a.session.history ∧ b.AtRest := by
  intro b
  have hpressed : Underway a (a.handleMouse (.down button) col row) :=
    mouseDown_underway hrest hstarts
  obtain ⟨hafter, hnotes, hhistory⟩ := (hpressed.run hon).cancel hrest
  exact ⟨hnotes, hhistory, hafter⟩

/-- A session with a step to take back and a note that is selected and copied. -/
def copied : Session Float :=
  let s := (Session.start Document.standard).commitNotes [.ofFields 1 60 0.0 1.0 40 "t_piano"]
  { s with selection := .only 1 }.copySelected.2

def opened : App (Recorder Float) Float :=
  run (start copied (Recorder.start true 0.0) .standard none) [.resize ⟨0, 0, 100, 40⟩]

/-- A drag in the lane, with every action in it that would replace the notes, and a new size of
the screen that moves the lane. -/
def interrupted : List (Input (Recorder Float) Float) :=
  [.mouse .drag 9 35, .action .undo, .action .paste, .action .deleteSelected,
    .resize ⟨0, 0, 90, 50⟩, .action .redo, .mouse (.wheel true true) 8 34, .tick ⟨1000⟩,
    .mouse .drag 9 45]

theorem interrupted_cancel_restores :
    opened.AtRest ∧ (opened.handleMouse (.down .left) 8 33).drag = some .lane ∧
    (opened.handleMouse (.down .left) 8 33).GoesThrough interrupted ∧
    (((opened.handleMouse (.down .left) 8 33).run interrupted).session.document.notes.map
      (·.velocity)) = [64] ∧
    let b := ((opened.handleMouse (.down .left) 8 33).run interrupted).handleAction .cancel
    b.session.document.notes = opened.session.document.notes ∧
      b.session.history = opened.session.history ∧ b.AtRest := by
  have hstart : (start copied (Recorder.start true 0.0) .standard none).AtRest :=
    ⟨rfl, rfl, rfl, rfl⟩
  have hrest : opened.AtRest := (resize_undisturbed _ ⟨0, 0, 100, 40⟩).atRest hstart
  have hdrag : (opened.handleMouse (.down .left) 8 33).drag = some .lane := by decide +kernel
  have hon : (opened.handleMouse (.down .left) 8 33).GoesThrough interrupted :=
    ⟨fun _ => by decide +kernel, trivial, trivial, trivial, trivial, trivial, trivial, trivial,
      fun _ => by decide +kernel, trivial⟩
  exact ⟨hrest, hdrag, hon, by decide +kernel,
    cancel_restores hrest (by rw [hdrag]; rfl) hon⟩

end App

end NoteRoll
