import NoteRoll.Decimal.Exact
import NoteRoll.Proofs.Events
import NoteRoll.Proofs.Previews

/-!
# Where a drag ends

A move of the pointer recomputes what a gesture previews from what was captured when the
pointer went down; nothing is added up on the way. So a gesture that has been moved
answers every further move as the gesture that it began as would, and a whole drag comes
to its last move, under the snap quantum and the grid of that moment. Two drags with one
beginning and one end are the same drag, whatever was passed through, snapped to and
scrolled past in between, be it clamped or off the grid.

One gesture does not answer moves: it is moving, and the note that it was grabbed by is
not among those captured. It then answers none at all, which is why it still is what it
was at the end.
-/

namespace NoteRoll

variable {σ α : Type} [Scalar α]

/-! ## Moves after moves -/

namespace Gesture

/-- What becomes of a gesture by some moves, each on a grid and in a session of its own. -/
inductive Follows (g : Gesture α) : Gesture α → Prop where
  | start : Follows g g
  | move {g' g'' : Gesture α} {grid : Grid α} {session : Session α} {p : Point α} :
    Follows g g' → g'.moveTo? grid session p = some g'' → Follows g g''

theorem moveTo?_of_move {g g' : Gesture α} {grid : Grid α} {session : Session α} {p : Point α}
    (h : g.moveTo? grid session p = some g') (grid' : Grid α) (session' : Session α)
    (p' : Point α) : g'.moveTo? grid' session' p' = g.moveTo? grid' session' p' := by
  rcases moveTo?_forms h with ⟨_, _, _, rfl, rfl⟩ | ⟨_, _, _, _, _, _, _, _, rfl, rfl⟩ |
    ⟨_, _, _, _, _, rfl, rfl⟩ | ⟨_, _, rfl, rfl⟩ <;> rfl

/-- Whether there is anything to update does not depend on the move. -/
theorem moveTo?_eq_none {g : Gesture α} {grid : Grid α} {session : Session α} {p : Point α}
    (h : g.moveTo? grid session p = none) (grid' : Grid α) (session' : Session α)
    (p' : Point α) : g.moveTo? grid' session' p' = none := by
  cases g with
  | idle => rfl
  | moving grabbed captured beatOffset pitchOffset deltaBeat deltaPitch =>
      simp only [moveTo?] at h ⊢
      split at h
      · rfl
      · cases h
  | drawing anchorBeat note | resizing id originStart originDuration duration
  | marquee anchor cursor => cases h

/-- Of the session a move reads the snap quantum only. -/
theorem moveTo?_congr {session session' : Session α} (h : session.snap = session'.snap)
    (g : Gesture α) (grid : Grid α) (p : Point α) :
    g.moveTo? grid session p = g.moveTo? grid session' p := by
  cases g <;> simp only [moveTo?, Session.snapUnit, h]

theorem Follows.moveTo?_eq {g g' : Gesture α} (h : g.Follows g') (grid : Grid α)
    (session : Session α) (p : Point α) :
    g'.moveTo? grid session p = g.moveTo? grid session p := by
  induction h with
  | start => rfl
  | move _ hmove ih => exact (moveTo?_of_move hmove grid session p).trans ih

/-- A gesture that moves were made with comes, by one more, to where the first of them
could have taken it at once. -/
theorem Follows.getD_moveTo? {g g' : Gesture α} (h : g.Follows g') (grid : Grid α)
    (session : Session α) (p : Point α) :
    (g'.moveTo? grid session p).getD g' = (g.moveTo? grid session p).getD g := by
  rw [h.moveTo?_eq]
  cases hmove : g.moveTo? grid session p with
  | some g'' => rfl
  | none =>
      -- Then no move was ever answered, and the gesture is the one that it began as.
      cases h with
      | start => rfl
      | move hbefore hlast =>
          rw [hbefore.moveTo?_eq, moveTo?_eq_none hmove] at hlast
          cases hlast

end Gesture

theorem GestureEditor.pointerMove_editor (e : GestureEditor α) (s : Session α) (p : Point α) :
    (e.pointerMove s p).2 =
      { e with gesture := (e.gesture.moveTo? e.grid s p).getD e.gesture } := by
  rw [pointerMove]
  split
  · next h => rw [h]; rfl
  · next h => rw [h]; rfl

/-! ## Drags -/

/-- The settings that a drag is under may change meanwhile: the snap quantum, and what the
grid shows. -/
def Event.adjusts : Event α → Bool
  | .setSnap _ | .scrollPitch _ | .centerOn _ _ => true
  | _ => false

/-- What a drag consists of between its press and its release. -/
def Event.drags : Event α → Bool
  | .gridMove _ => true
  | e => e.adjusts

omit [Scalar α] in
theorem Event.drags_of_adjusts {e : Event α} (h : e.adjusts = true) : e.drags = true := by
  cases e with
  | gridMove p => rfl
  | _ => exact h

namespace Studio

variable [NumberText α] [SoundOutput σ α]

/-- Nothing but the gesture, the grid and the snap quantum differs, and the gesture
followed from moves. -/
structure Dragged (s t : Studio σ α) : Prop where
  session : t.session = { s.session with snap := t.session.snap }
  gesture : s.gestures.gesture.Follows t.gestures.gesture
  edgeMargin : t.gestures.edgeMargin = s.gestures.edgeMargin
  velocities : t.velocities = s.velocities
  transport : t.transport = s.transport
  output : t.output = s.output

omit [NumberText α] [SoundOutput σ α] in
theorem Dragged.refl (s : Studio σ α) : s.Dragged s := ⟨rfl, .start, rfl, rfl, rfl, rfl⟩

theorem Dragged.next {s t : Studio σ α} (h : s.Dragged t) {e : Event α} (he : e.drags = true) :
    s.Dragged (t.next e) := by
  obtain ⟨hsession, hgesture, hmargin, hvelocities, htransport, houtput⟩ := h
  cases e with
  | gridMove p =>
      have hnext : (t.next (.gridMove p)).gestures = { t.gestures with gesture :=
          (t.gestures.gesture.moveTo? t.gestures.grid t.session p).getD t.gestures.gesture } :=
        t.gestures.pointerMove_editor t.session p
      refine ⟨hsession, ?_, ?_, hvelocities, htransport, houtput⟩
      · rw [hnext]
        cases hmove : t.gestures.gesture.moveTo? t.gestures.grid t.session p with
        | none => exact hgesture
        | some g => exact hgesture.move hmove
      · rw [hnext]
        exact hmargin
  | setSnap quantum =>
      refine ⟨?_, hgesture, hmargin, hvelocities, htransport, houtput⟩
      show t.session.setSnap quantum = { s.session with snap := (t.session.setSnap quantum).snap }
      rw [hsession]
      rfl
  | scrollPitch semitones =>
      exact ⟨hsession, hgesture, hmargin, hvelocities, htransport, houtput⟩
  | centerOn center rows =>
      exact ⟨hsession, hgesture, hmargin, hvelocities, htransport, houtput⟩
  | _ => cases he

theorem run_dragged (s : Studio σ α) {events : List (Event α)}
    (h : ∀ e ∈ events, e.drags = true) : s.Dragged (s.run events) := by
  suffices hfrom : ∀ t : Studio σ α, s.Dragged t → s.Dragged (t.run events) from
    hfrom s (.refl s)
  induction events with
  | nil => exact fun t ht => ht
  | cons e es ih =>
      rw [List.forall_mem_cons] at h
      exact fun t ht => ih h.2 _ (ht.next h.1)

theorem next_gesture (s : Studio σ α) {e : Event α} (he : e.adjusts = true) :
    (s.next e).gestures.gesture = s.gestures.gesture := by
  cases e with
  | setSnap quantum | scrollPitch semitones | centerOn center rows => rfl
  | _ => cases he

theorem run_gesture (s : Studio σ α) {events : List (Event α)}
    (h : ∀ e ∈ events, e.adjusts = true) :
    (s.run events).gestures.gesture = s.gestures.gesture := by
  induction events generalizing s with
  | nil => rfl
  | cons e es ih =>
      rw [List.forall_mem_cons] at h
      exact (ih (s.next e) h.2).trans (s.next_gesture h.1)

/-- A drag comes to its last move: the gesture is what that one move makes of the gesture
at the beginning, on the grid and with the snap quantum of the moment. -/
theorem gesture_of_drag (s : Studio σ α) {before : List (Event α)}
    (h : ∀ e ∈ before, e.drags = true) (p : Point α) :
    (s.run (before ++ [.gridMove p])).gestures.gesture =
      (s.gestures.gesture.moveTo? (s.run before).gestures.grid (s.run before).session p).getD
        s.gestures.gesture := by
  have hmoved := congrArg GestureEditor.gesture
    ((s.run before).gestures.pointerMove_editor (s.run before).session p)
  rw [run_append]
  exact hmoved.trans ((s.run_dragged h).gesture.getD_moveTo? _ _ _)

/-- Settings that change between the last move and the release leave the gesture alone. -/
theorem run_past_last_move (s : Studio σ α) {before after : List (Event α)}
    (hbefore : ∀ e ∈ before, e.drags = true) (p : Point α)
    (hafter : ∀ e ∈ after, e.adjusts = true) :
    s.Dragged (s.run (before ++ .gridMove p :: after)) ∧
    (s.run (before ++ .gridMove p :: after)).gestures.gesture =
      (s.run (before ++ [.gridMove p])).gestures.gesture := by
  constructor
  · refine s.run_dragged fun e he => ?_
    rcases List.mem_append.1 he with he | he
    · exact hbefore e he
    · rcases List.mem_cons.1 he with rfl | he
      · rfl
      · exact Event.drags_of_adjusts (hafter e he)
  · rw [run_append, run_cons, run_append]
    exact run_gesture _ hafter

/-- The same snap quantum is set and the same grid is shown. -/
structure SetAlike (s t : Studio σ α) : Prop where
  snap : s.session.snap = t.session.snap
  grid : s.gestures.grid = t.gestures.grid

omit [NumberText α] [SoundOutput σ α] in
/-- What a drag leads to is told by the gesture and the settings. -/
theorem Dragged.eq {s t t' : Studio σ α} (h : s.Dragged t) (h' : s.Dragged t')
    (hgesture : t.gestures.gesture = t'.gestures.gesture) (hset : t.SetAlike t') : t = t' := by
  obtain ⟨hsession, -, hmargin, hvelocities, htransport, houtput⟩ := h
  obtain ⟨hsession', -, hmargin', hvelocities', htransport', houtput'⟩ := h'
  obtain ⟨session, ⟨gesture, grid, margin⟩, velocities, transport, output⟩ := t
  obtain ⟨session', ⟨gesture', grid', margin'⟩, velocities', transport', output'⟩ := t'
  obtain ⟨hsnap, hgrid⟩ := hset
  dsimp only at *
  subst hvelocities htransport houtput hgesture hgrid hmargin
  rw [hsession, hsession', hsnap, hmargin', hvelocities', htransport', houtput']

/-- Two drags from one state are the same drag if their last moves go to the same point
under the same settings, and they are under the same settings when they end. -/
theorem drag_ends_alike (s : Studio σ α) (p : Point α)
    {before after before' after' : List (Event α)}
    (hbefore : ∀ e ∈ before, e.drags = true) (hafter : ∀ e ∈ after, e.adjusts = true)
    (hbefore' : ∀ e ∈ before', e.drags = true) (hafter' : ∀ e ∈ after', e.adjusts = true)
    (hmove : (s.run before).SetAlike (s.run before'))
    (hrelease : (s.run (before ++ .gridMove p :: after)).SetAlike
      (s.run (before' ++ .gridMove p :: after'))) :
    let a := s.run (before ++ .gridMove p :: after)
    let b := s.run (before' ++ .gridMove p :: after')
    (s.run (before ++ [.gridMove p])).gestures.gesture =
      (s.run (before' ++ [.gridMove p])).gestures.gesture ∧
    a.gestures.gesture = b.gestures.gesture ∧
    a.gestures.ghosts a.session = b.gestures.ghosts b.session ∧
    a.gestures.gesture.marqueeRect? = b.gestures.gesture.marqueeRect? ∧
    a.gridUp = b.gridUp ∧
    ∀ events, (∀ e ∈ events, e.drags = true) →
      (s.run events).session.document = s.session.document ∧
      (s.run events).session.selection = s.session.selection ∧
      (s.run events).session.history = s.session.history := by
  intro a b
  have hlast : (s.run (before ++ [.gridMove p])).gestures.gesture =
      (s.run (before' ++ [.gridMove p])).gestures.gesture := by
    rw [s.gesture_of_drag hbefore, s.gesture_of_drag hbefore', hmove.grid,
      Gesture.moveTo?_congr hmove.snap]
  obtain ⟨hdragged, hgesture⟩ := s.run_past_last_move hbefore p hafter
  obtain ⟨hdragged', hgesture'⟩ := s.run_past_last_move hbefore' p hafter'
  have hsame : a = b :=
    hdragged.eq hdragged' (hgesture.trans (hlast.trans hgesture'.symm)) hrelease
  refine ⟨hlast, by rw [hsame], by rw [hsame], by rw [hsame], by rw [hsame], fun events h => ?_⟩
  rw [(s.run_dragged h).session]
  exact ⟨rfl, rfl, rfl⟩

/-- A chord that was grabbed by its first note. -/
def grabbedChord : Studio (Recorder Rat) Rat :=
  let studio : Studio (Recorder Rat) Rat :=
    { session := GestureEditor.chordSession, gestures := .ofGrid .standard 6,
      velocities := .ofLane ⟨5, 0⟩, transport := .ofTiming .standard, output := .start true 0 }
  (studio.gridDown ⟨50, 876⟩ .primary).2

/-- One path leads far off the grid and through other quanta, the other one scrolls and
comes back: the chord ends up in the same place. -/
theorem grabbedChord_ends_alike :
    let before : List (Event Rat) :=
      [.gridMove ⟨-900, 5000⟩, .setSnap 4, .gridMove ⟨9000, -70⟩, .setSnap (1 / 4),
        .centerOn 60 73]
    let before' : List (Event Rat) := [.scrollPitch 25, .gridMove ⟨77, 33⟩, .centerOn 60 73]
    let a := grabbedChord.run (before ++ .gridMove ⟨30, 756⟩ :: [.setSnap 1])
    let b := grabbedChord.run (before' ++ .gridMove ⟨30, 756⟩ :: [.setSnap 0, .setSnap 1])
    (∀ e ∈ before ++ before', e.drags = true) ∧
    (a.gridUp.2.session.document.notes.map fun n => (n.id, n.pitch, n.start)) =
      [(1, 65, 1 / 2), (2, 96, 1 / 4), (3, 72, 3 / 2), (4, 62, 0), (5, 69, 0)] ∧
    a.gridUp = b.gridUp := by
  intro before before' a b
  have hdrags : ∀ e ∈ before ++ before', e.drags = true := by decide +kernel
  have hset : (grabbedChord.run before).SetAlike (grabbedChord.run before') := by
    refine ⟨by decide +kernel, (Grid.mk.injEq ..).mpr ⟨?_, ?_, ?_, ?_⟩⟩ <;> decide +kernel
  have hset' : a.SetAlike b := by
    refine ⟨by decide +kernel, (Grid.mk.injEq ..).mpr ⟨?_, ?_, ?_, ?_⟩⟩ <;> decide +kernel
  obtain ⟨-, -, -, -, hup, -⟩ := grabbedChord.drag_ends_alike ⟨30, 756⟩
    (fun e he => hdrags e (List.mem_append_left _ he)) (by decide +kernel)
    (fun e he => hdrags e (List.mem_append_right _ he)) (by decide +kernel) hset hset'
  exact ⟨hdrags, by decide +kernel, hup⟩

end Studio

end NoteRoll
