import NoteRoll.Decimal.Shortest
import NoteRoll.Proofs.Inputs

/-!
# Who holds the pointer

Three things say where the pointer is dragging: the application's own field,
the gesture on the grid, and the note that the lane is editing. `Coherent` is
that they agree, and that nothing is left uncommitted once there is no drag.

The three are set by different handlers, and no handler for a press asks
whether the other surface has a drag. So coherence is not kept by all inputs.
A second button that goes down on the other surface takes the field over, and
the first drag is stuck behind it: its release reaches the wrong editor. And a
drag in the lane that showed velocities for several notes gives back only the
last of them when it is abandoned. `coherent_iff` is that there is no third
way: an application stays coherent exactly as long as neither happens.

The invariant that carries the induction is stronger than coherence and has a
constructor for each value of the field. It adds that a gesture on the grid
begins with nothing uncommitted, which matters when that gesture is abandoned.
-/

namespace NoteRoll

namespace App

variable {σ α : Type}

/-- The three records of a drag agree, and without one nothing is uncommitted. -/
structure Coherent (a : App σ α) : Prop where
  grid : a.drag = some .grid ↔ a.studio.gestures.isIdle = false
  lane : a.drag = some .lane ↔ a.studio.velocities.editing.isSome = true
  settled : a.drag = none → a.session.document.notes = a.session.history.present

/-- Coherence by cases, with what a gesture on the grid begins with. -/
inductive Sound (a : App σ α) : Prop where
  | atRest (drag : a.drag = none) (idle : a.studio.gestures.isIdle = true)
      (editing : a.studio.velocities.editing = none) (settled : a.session.IsSettled)
  | onGrid (drag : a.drag = some .grid) (busy : a.studio.gestures.isIdle = false)
      (editing : a.studio.velocities.editing = none) (settled : a.session.IsSettled)
  | onLane (drag : a.drag = some .lane) (idle : a.studio.gestures.isIdle = true)
      (editing : a.studio.velocities.editing.isSome = true)

theorem Sound.coherent {a : App σ α} (h : a.Sound) : a.Coherent := by
  cases h with
  | atRest drag idle editing settled =>
      refine ⟨?_, ?_, fun _ => settled⟩
      · rw [drag, idle]
        exact ⟨nofun, nofun⟩
      · rw [drag, editing]
        exact ⟨nofun, nofun⟩
  | onGrid drag busy editing settled =>
      refine ⟨?_, ?_, fun hnone => ?_⟩
      · rw [drag, busy]
        exact ⟨fun _ => rfl, fun _ => rfl⟩
      · rw [drag, editing]
        exact ⟨nofun, nofun⟩
      · rw [drag] at hnone
        cases hnone
  | onLane drag idle editing =>
      refine ⟨?_, ?_, fun hnone => ?_⟩
      · rw [drag, idle]
        exact ⟨nofun, nofun⟩
      · rw [drag, editing]
        exact ⟨fun _ => rfl, fun _ => rfl⟩
      · rw [drag] at hnone
        cases hnone

theorem Undisturbed.sound {a b : App σ α} (hsame : Undisturbed a b) (h : a.Sound) :
    b.Sound := by
  cases h with
  | atRest drag idle editing settled =>
      exact .atRest (hsame.drag.trans drag) (hsame.idle.trans idle)
        (hsame.editing.trans editing) (hsame.settled settled)
  | onGrid drag busy editing settled =>
      exact .onGrid (hsame.drag.trans drag) (hsame.idle.trans busy)
        (hsame.editing.trans editing) (hsame.settled settled)
  | onLane drag idle editing =>
      exact .onLane (hsame.drag.trans drag) (hsame.idle.trans idle) (hsame.editing ▸ editing)

/-! ## What a press does -/

section Presses

variable [Scalar α] [SoundOutput σ α]

def laneNote? (a : App σ α) (col row : Nat) : Option (Note α) :=
  VelocityEditor.hitTest? a.session (a.grid.xToBeat (a.pixelAt a.layout.lane col row).x)

/-- A press on the roll that begins a gesture takes the drag. -/
theorem pressGrid_begins {a : App σ α} {button : MouseButton}
    (hidle : a.studio.gestures.isIdle = true) (hbutton : button ≠ .right)
    (htool : a.session.tool ≠ .erase) (col row : Nat) :
    (a.pressGrid button col row).drag = some .grid ∧
      (a.pressGrid button col row).studio.gestures.isIdle = false ∧
      (a.pressGrid button col row).studio.velocities = a.studio.velocities ∧
      (a.session.IsSettled → (a.pressGrid button col row).session.IsSettled) := by
  have hstarted := (GestureEditor.pointerDown_started_iff a.studio.gestures
    a.studio.session (a.pixelAt a.layout.grid col row) .primary).2 ⟨hidle, rfl, htool⟩
  have hbegins := GestureEditor.begins_of_started hstarted
  obtain ⟨selection, nextId, hsession, -⟩ := hbegins.session
  simp only [pressGrid, Studio.gridDown, pointerOf, if_neg hbutton, hstarted]
  refine ⟨trivial, hbegins.busy, rfl, fun hs => ?_⟩
  show Session.IsSettled (GestureEditor.pointerDown _ _ _ _).session
  rw [hsession]
  exact hs

/-- Any other press on the roll deletes a note or does nothing. -/
theorem pressGrid_undisturbed {a : App σ α} {button : MouseButton}
    (h : ¬ (a.studio.gestures.isIdle = true ∧ button ≠ .right ∧ a.session.tool ≠ .erase))
    (col row : Nat) : Undisturbed a (a.pressGrid button col row) := by
  have hnot : (a.studio.gestures.pointerDown a.studio.session
      (a.pixelAt a.layout.grid col row)
      (pointerOf button)).outcome ≠ .started := by
    intro hstarted
    obtain ⟨hidle, hprimary, htool⟩ :=
      (GestureEditor.pointerDown_started_iff _ _ _ _).1 hstarted
    refine h ⟨hidle, fun hright => ?_, htool⟩
    rw [pointerOf, if_pos hright] at hprimary
    cases hprimary
  simp only [pressGrid, Studio.gridDown]
  rcases a.studio.gestures.pointerDown_cases a.studio.session
    (a.pixelAt a.layout.grid col row) (pointerOf button) with hcase | ⟨n, -, hcase⟩ | hcase
  · rw [hcase]
    exact ⟨rfl, rfl, rfl, id⟩
  · rw [hcase]
    exact ⟨rfl, rfl, rfl, Session.settled_of_step Mark.noConfusion
      (a.studio.session.deleteNote_step n.id)⟩
  · exact absurd hcase.outcome hnot

omit [SoundOutput σ α] in
/-- A press in the lane takes the drag just if a note is there. -/
theorem pressLane_cases (a : App σ α) (col row : Nat) :
    (a.laneNote? col row = none ∧ a.pressLane col row = a) ∨
    ((a.laneNote? col row).isSome = true ∧ (a.pressLane col row).drag = some .lane ∧
      (a.pressLane col row).studio.gestures = a.studio.gestures ∧
      (a.pressLane col row).studio.velocities.editing.isSome = true) := by
  rcases a.studio.velocities.pointerDown_cases a.studio.session
    (a.grid.xToBeat (a.pixelAt a.layout.lane col row).x) (a.laneY row) with
    ⟨hnone, h⟩ | ⟨n, hsome, h⟩
  · refine .inl ⟨hnone, ?_⟩
    simp only [pressLane, Studio.laneDown, h, Bool.false_eq_true, if_false]
    rfl
  · refine .inr ⟨?_, ?_⟩
    · rw [laneNote?, session, hsome]
      rfl
    · simp only [pressLane, Studio.laneDown, h, if_true]
      exact ⟨trivial, rfl, rfl⟩

theorem pressRuler_undisturbed (a : App σ α) (col row : Nat) :
    Undisturbed a (a.pressRuler col row) := ⟨rfl, rfl, rfl, id⟩

omit [Scalar α] [SoundOutput σ α] in
theorem pressTracks_undisturbed (a : App σ α) (row : Nat) :
    Undisturbed a (a.pressTracks row) := by
  rw [pressTracks]
  split
  · exact a.undisturbed_session _ (a.studio.session.setsTracks_setActiveTrack _).keeps.settled
  · exact .refl a

/-- The press begins a drag on one surface while there is one on the other. -/
def TakesOver (a : App σ α) (button : MouseButton) (col row : Nat) : Prop :=
  (a.drag = some .lane ∧ a.layout.grid.contains col row = true ∧
    button ≠ .right ∧ a.session.tool ≠ .erase) ∨
  (a.drag = some .grid ∧ a.layout.grid.contains col row = false ∧
    a.layout.lane.contains col row = true ∧ button = .left ∧
    (a.laneNote? col row).isSome = true)

theorem mouseDown_sound {a : App σ α} (h : a.Sound) {button : MouseButton} {col row : Nat}
    (hfree : ¬ a.TakesOver button col row) : (a.mouseDown button col row).Sound := by
  rw [mouseDown]
  split
  · next hgrid =>
      by_cases hstarts :
          a.studio.gestures.isIdle = true ∧ button ≠ .right ∧ a.session.tool ≠ .erase
      · obtain ⟨hidle, hbutton, htool⟩ := hstarts
        obtain ⟨hdrag, hbusy, hvelocities, hsettled⟩ :=
          pressGrid_begins hidle hbutton htool col row
        cases h with
        | atRest drag idle editing settled =>
            exact .onGrid hdrag hbusy (by rw [hvelocities, editing]) (hsettled settled)
        | onGrid drag busy editing settled =>
            rw [hidle] at busy
            cases busy
        | onLane drag idle editing =>
            exact absurd (.inl ⟨drag, hgrid, hbutton, htool⟩) hfree
      · exact (pressGrid_undisturbed hstarts col row).sound h
  · next hgrid =>
      split
      · next hlane =>
          obtain ⟨hcontains, hleft⟩ := Bool.and_eq_true_iff.1 hlane
          rcases a.pressLane_cases col row with ⟨-, hsame⟩ | ⟨hnote, hdrag, hgestures, hediting⟩
          · rw [hsame]
            exact h
          · have hidle : a.studio.gestures.isIdle = true := by
              cases h with
              | atRest drag idle editing settled => exact idle
              | onLane drag idle editing => exact idle
              | onGrid drag busy editing settled =>
                  refine absurd (.inr ⟨drag, ?_, hcontains, ?_, hnote⟩) hfree
                  · exact Bool.eq_false_iff.2 hgrid
                  · exact of_decide_eq_true hleft
            exact .onLane hdrag (by rw [hgestures, hidle]) hediting
      · split
        · exact (a.pressRuler_undisturbed col row).sound h
        · split
          · exact (a.pressTracks_undisturbed row).sound h
          · exact h

theorem TakesOver.incoherent {a : App σ α} (h : a.Coherent) {button : MouseButton}
    {col row : Nat} (htakes : a.TakesOver button col row) :
    ¬ (a.mouseDown button col row).Coherent := by
  intro hafter
  rcases htakes with ⟨hdrag, hgrid, hbutton, htool⟩ | ⟨hdrag, hgrid, hlane, rfl, hnote⟩
  · have hidle : a.studio.gestures.isIdle = true := by
      refine Bool.not_eq_false _ ▸ fun hbusy => ?_
      have hother := h.grid.2 hbusy
      rw [hdrag] at hother
      cases hother
    obtain ⟨hnow, -, hvelocities, -⟩ := pressGrid_begins hidle hbutton htool col row
    rw [mouseDown, if_pos hgrid] at hafter
    have hstill := hafter.lane.2 (by rw [hvelocities]; exact h.lane.1 hdrag)
    rw [hnow] at hstill
    cases hstill
  · rw [mouseDown, if_neg (Bool.eq_false_iff.1 hgrid), hlane, if_pos (by decide)] at hafter
    rcases a.pressLane_cases col row with ⟨hnone, -⟩ | ⟨-, hnow, hgestures, -⟩
    · rw [hnone] at hnote
      cases hnote
    · have hstill := hafter.grid.2 (by rw [hgestures]; exact h.grid.1 hdrag)
      rw [hnow] at hstill
      cases hstill

end Presses

/-! ## What becomes of a drag -/

section Drags

variable [Scalar α]

omit [Scalar α] in
/-- The end of a drag in the lane commits what it showed. -/
theorem endLane_sound {a : App σ α} (hidle : a.studio.gestures.isIdle = true)
    (hediting : a.studio.velocities.editing.isSome = true) :
    Sound { a with studio := a.studio.laneUp.2, drag := none } := by
  rcases a.studio.velocities.pointerUp_cases a.studio.session with ⟨hnone, -⟩ | ⟨-, hup⟩
  · rw [hnone] at hediting
    cases hediting
  · simp only [Studio.laneUp, hup]
    exact .atRest rfl hidle rfl (a.studio.session.commitCurrent_step.moves.settled nofun)

theorem mouseDrag_sound {a : App σ α} (h : a.Sound) (col row : Nat) :
    (a.mouseDrag col row).Sound := by
  cases h with
  | atRest drag idle editing settled =>
      rw [mouseDrag, drag]
      exact .atRest drag idle editing settled
  | onGrid drag busy editing settled =>
      rw [mouseDrag, drag]
      refine .onGrid drag ?_ editing settled
      exact (a.studio.gestures.pointerMove_kind a.studio.session _).1.trans busy
  | onLane drag idle editing =>
      rw [mouseDrag, drag]
      dsimp only
      split
      · exact .onLane drag idle editing
      · exact endLane_sound idle editing

theorem mouseUp_sound {a : App σ α} (h : a.Sound) : a.mouseUp.Sound := by
  cases h with
  | atRest drag idle editing settled =>
      rw [mouseUp, drag]
      exact .atRest drag idle editing settled
  | onGrid drag busy editing settled =>
      rw [mouseUp, drag]
      simp only [Studio.gridUp]
      rcases a.studio.gestures.pointerUp_cases a.studio.session with
        ⟨hidle, -⟩ | ⟨-, notes, selection, hup, -⟩ | ⟨-, count, selection, hup, -⟩
      · rw [hidle] at busy
        cases busy
      · rw [hup]
        exact .atRest rfl rfl editing rfl
      · rw [hup]
        exact .atRest rfl rfl editing settled
  | onLane drag idle editing =>
      rw [mouseUp, drag]
      exact endLane_sound idle editing

end Drags

/-! ## Inputs and runs -/

variable [Scalar α] [SoundOutput σ α] [NumberText α]

/-- A drag in the lane has shown velocities for more than the note it edits now. -/
def Strands (a : App σ α) : Prop :=
  a.drag = some .lane ∧ ∀ id velocity, a.studio.velocities.editing = some id →
    a.session.document.notes ≠ revoiced id velocity a.session.history.present

theorem handleAction_cancel (a : App σ α) : a.handleAction .cancel =
    { a with studio := a.studio.gridCancel.laneCancel.2, drag := none } := by
  show (if (a.drag.isSome && false) = true then a else _) = _
  rw [Bool.and_false]
  rfl

theorem cancel_sound {a : App σ α} (h : a.Sound) (hone : ¬ a.Strands) :
    (a.handleAction .cancel).Sound := by
  rw [handleAction_cancel]
  refine .atRest rfl rfl (a.studio.velocities.cancel_editing a.studio.session) ?_
  cases hediting : a.studio.velocities.editing with
  | none =>
      -- Nothing to take back; a gesture on the grid began with nothing uncommitted.
      have hsettled : a.session.IsSettled := by
        cases h with
        | atRest drag idle editing settled => exact settled
        | onGrid drag busy editing settled => exact settled
        | onLane drag idle editing =>
            rw [hediting] at editing
            cases editing
      rcases a.studio.velocities.cancel_cases a.studio.session with ⟨-, hsame⟩ | ⟨id, hid, -⟩
      · show Session.IsSettled (a.studio.velocities.cancel a.studio.session).2.2
        rw [hsame]
        exact hsettled
      · rw [hid] at hediting
        cases hediting
  | some id =>
      refine (VelocityEditor.cancel_settled_iff hediting).2 ?_
      have hdrag := h.coherent.lane.2 (by rw [hediting]; rfl)
      refine Classical.byContradiction fun hno => hone ⟨hdrag, ?_⟩
      intro other velocity hother hshown
      obtain rfl : id = other := Option.some.inj (hediting.symm.trans hother)
      exact hno ⟨velocity, hshown⟩

theorem Strands.incoherent {a : App σ α} (h : a.Coherent) (hstrands : a.Strands) :
    ¬ (a.handleAction .cancel).Coherent := by
  obtain ⟨hdrag, hmore⟩ := hstrands
  intro hafter
  rw [handleAction_cancel] at hafter
  obtain ⟨id, hid⟩ := Option.isSome_iff_exists.1 (h.lane.1 hdrag)
  obtain ⟨velocity, hshown⟩ :=
    (VelocityEditor.cancel_settled_iff hid).1 (hafter.settled rfl)
  exact hmore id velocity hid hshown

/-- The inputs that break coherence. -/
def Breaks (a : App σ α) : Input σ α → Prop
  | .mouse (.down button) col row => a.TakesOver button col row
  | .action .cancel => a.Strands
  | _ => False

theorem Sound.next {a : App σ α} (h : a.Sound) {i : Input σ α} (hkeeps : ¬ a.Breaks i) :
    (a.next i).Sound := by
  cases i with
  | action action =>
      by_cases hcancel : action = .cancel
      · rw [hcancel] at hkeeps ⊢
        exact cancel_sound h hkeeps
      · exact (a.handleAction_undisturbed hcancel).sound h
  | mouse event col row =>
      cases event with
      | down button => exact mouseDown_sound h hkeeps
      | drag => exact mouseDrag_sound h col row
      | up => exact mouseUp_sound h
      | wheel up shift =>
          have hwheel : Undisturbed a (a.handleMouse (.wheel up shift) col row) := by
            rw [handleMouse.eq_def]
            cases up <;> cases shift <;> exact a.handleAction_undisturbed nofun
          exact hwheel.sound h
      | other => exact h
  | resize screen => exact (a.resize_undisturbed screen).sound h
  | tick time =>
      have hsame : Undisturbed a (a.next (.tick time)) := ⟨rfl, rfl, rfl, id⟩
      exact hsame.sound h
  | elapse change =>
      have hsame : Undisturbed a (a.next (.elapse change)) := ⟨rfl, rfl, rfl, id⟩
      exact hsame.sound h

theorem Breaks.incoherent {a : App σ α} (h : a.Coherent) {i : Input σ α}
    (hbreaks : a.Breaks i) : ¬ (a.next i).Coherent := by
  cases i with
  | action action =>
      cases action with
      | cancel => exact Strands.incoherent h hbreaks
      | _ => cases hbreaks
  | mouse event col row =>
      cases event with
      | down button => exact TakesOver.incoherent h hbreaks
      | _ => cases hbreaks
  | resize screen => cases hbreaks
  | tick time => cases hbreaks
  | elapse change => cases hbreaks

/-- A sound application stays coherent just as long as no input breaks it. -/
theorem Sound.run_coherent_iff {a : App σ α} (h : a.Sound) (inputs : List (Input σ α)) :
    (∀ before, before <+: inputs → (a.run before).Coherent) ↔
      ∀ before i, before ++ [i] <+: inputs → ¬ (a.run before).Breaks i := by
  constructor
  · intro hall before i hprefix hbreaks
    have hbefore := hall before ((List.prefix_append before [i]).trans hprefix)
    have hafter := hall (before ++ [i]) hprefix
    rw [run_append] at hafter
    exact hbreaks.incoherent hbefore hafter
  · intro hnone
    induction inputs generalizing a with
    | nil =>
        intro before hprefix
        rw [List.prefix_nil.1 hprefix]
        exact h.coherent
    | cons i is ih =>
        have hfirst : ¬ a.Breaks i := hnone [] i (List.prefix_append [i] is)
        intro before hprefix
        rcases List.prefix_cons_iff.1 hprefix with rfl | ⟨rest, rfl, hrest⟩
        · exact h.coherent
        · refine ih (h.next hfirst) (fun js j hjs => ?_) rest hrest
          exact hnone (i :: js) j (List.cons_prefix_cons.2 ⟨rfl, hjs⟩)

/-- An application on any session stays coherent through some inputs exactly if
the session had nothing uncommitted, and no press begins a drag on one surface
while there is one on the other, and no drag in the lane is abandoned after it
showed velocities for several notes. -/
theorem coherent_iff (session : Session α) (output : σ) (config : Config α)
    (file : Option OpenedFile) (inputs : List (Input σ α)) :
    (∀ before, before <+: inputs →
      ((start session output config file).run before).Coherent) ↔
    session.document.notes = session.history.present ∧
    ∀ before i, before ++ [i] <+: inputs →
      ¬ ((start session output config file).run before).Breaks i := by
  constructor
  · intro hall
    have hsettled : session.IsSettled := (hall [] (List.nil_prefix)).settled rfl
    have hsound : (start session output config file).Sound := .atRest rfl rfl rfl hsettled
    exact ⟨hsettled, (hsound.run_coherent_iff inputs).1 hall⟩
  · rintro ⟨hsettled, hnone⟩
    have hsound : (start session output config file).Sound := .atRest rfl rfl rfl hsettled
    exact (hsound.run_coherent_iff inputs).2 hnone

/-- The left button grabs a note in the lane, and with that drag in flight the
middle button goes down on the roll and up again. -/
def crossed : App (Recorder Float) Float :=
  let document := Document.standard.replaceNotes [.ofFields 1 60 0.0 1.0 40 "t_piano"]
  run (start (Session.start document) (Recorder.start true 0.0) .standard none)
    [.resize ⟨0, 0, 100, 40⟩, .action (.setTool .select), .mouse (.down .left) 8 33,
      .mouse (.down .middle) 40 20, .mouse .up 40 20]

/-- The lane still edits its note, and shows a velocity that no snapshot has. -/
theorem crossed_incoherent :
    crossed.drag = none ∧ crossed.studio.velocities.editing = some 1 ∧
    crossed.session.document.notes.map (·.velocity) = [114] ∧
    crossed.session.history.present.map (·.velocity) = [40] ∧ ¬ crossed.Coherent := by
  have hdrag : crossed.drag = none := by decide +kernel
  have hediting : crossed.studio.velocities.editing = some 1 := by decide +kernel
  refine ⟨hdrag, hediting, by decide +kernel, by decide +kernel, fun h => ?_⟩
  have hlane := h.lane.2 (by rw [hediting]; rfl)
  rw [hdrag] at hlane
  cases hlane

end App

end NoteRoll
