import NoteRoll.Proofs.Events

/-!
# What the pointer can do to a session

The two editors reach the session through six handlers. Each is summed up here
by everything it can do, guards included, so that the invariants proved later
never open a handler again.

On the grid a press is ignored, deletes a note, or begins a gesture; a gesture
that begins may take an identity and narrow the selection but leaves notes and
history alone. A release commits a list of notes or selects some. In the lane
the pointer previews: it writes one velocity into the document and nothing
into the history, until the release commits what is shown.
-/

namespace NoteRoll

variable {α : Type}

/-- The session with another velocity shown for one note. -/
def Session.preview (s : Session α) (id : NoteId) (velocity : Nat) : Session α :=
  { s with document := s.document.setVelocity id velocity }

/-- Notes with another velocity for one of them. -/
def revoiced (id : NoteId) (velocity : Nat) (notes : List (Note α)) : List (Note α) :=
  updateFirst (fun n => n.id == id) (fun n => { n with velocity }) notes

theorem revoiced_revoiced (id : NoteId) (v w : Nat) (notes : List (Note α)) :
    revoiced id v (revoiced id w notes) = revoiced id v notes := by
  refine updateFirst_updateFirst ?_ ?_ notes
  · exact fun _ => rfl
  · exact fun _ => rfl

theorem revoiced_of_absent {id : NoteId} {notes : List (Note α)}
    (h : notes.find? (fun n => n.id == id) = none) (velocity : Nat) :
    revoiced id velocity notes = notes := updateFirst_of_find?_none h

theorem revoiced_own {id : NoteId} {notes : List (Note α)} {n : Note α}
    (h : notes.find? (fun n => n.id == id) = some n) : revoiced id n.velocity notes = notes :=
  updateFirst_of_find?_some h rfl

/-- Setting the velocity that a note has already leaves the note where it is, also if it is
another note that the velocity is set for. -/
theorem mem_revoiced {notes : List (Note α)} {n : Note α} (h : n ∈ notes) :
    n ∈ revoiced n.id n.velocity notes := by
  induction notes with
  | nil => cases h
  | cons m ms ih =>
      rw [revoiced, updateFirst]
      rcases List.mem_cons.1 h with rfl | hlater
      · rw [if_pos (beq_self_eq_true _)]
        exact List.mem_cons_self
      · split
        · exact List.mem_cons_of_mem _ hlater
        · exact List.mem_cons_of_mem _ (ih hlater)

/-- Of the notes of an identity that is there, one is the first. -/
theorem exists_first {notes : List (Note α)} {n : Note α} (hn : n ∈ notes) :
    ∃ f ∈ notes, f.id = n.id ∧ (notes.find? fun m => m.id == n.id) = some f := by
  have hsome : (notes.find? fun m => m.id == n.id).isSome = true :=
    List.find?_isSome.2 ⟨n, hn, beq_self_eq_true _⟩
  obtain ⟨f, hf⟩ := Option.isSome_iff_exists.1 hsome
  exact ⟨f, List.mem_of_find?_eq_some hf, eq_of_beq (List.find?_some hf :), hf⟩

theorem exists_revoiced_eq (id : NoteId) (notes : List (Note α)) :
    ∃ velocity, revoiced id velocity notes = notes := by
  cases h : notes.find? fun n => n.id == id with
  | none => exact ⟨0, revoiced_of_absent h 0⟩
  | some n => exact ⟨n.velocity, revoiced_own h⟩

/-- A selection all of whose identities are in use. -/
def Selection.Lives (selection : Selection) (d : Document α) : Prop :=
  ∀ id ∈ selection.ids, d.contains id = true

theorem Selection.lives_empty (d : Document α) : Selection.empty.Lives d :=
  fun _ h => absurd h (List.not_mem_nil)

theorem Selection.lives_prune (s : Selection) (d : Document α) : (s.prune d).Lives d :=
  fun _ h => contains_of_mem_prune h

theorem Selection.lives_only {id : NoteId} {d : Document α} (h : d.contains id = true) :
    (Selection.only id).Lives d := by
  intro i hi
  rw [List.mem_singleton.1 hi]
  exact h

/-! ## The grid -/

/-- The gestures that provisionally change notes, which is all but the
rectangle of selection. -/
def Gesture.changesNotes : Gesture α → Bool
  | .drawing .. | .moving .. | .resizing .. => true
  | .idle | .marquee .. => false

/-- Everything a move can make of a gesture: a note that is being drawn or resized gets a
length, captured notes a distance, a rectangle its other corner. -/
theorem Gesture.moveTo?_forms [Scalar α] {g g' : Gesture α} {grid : Grid α} {s : Session α}
    {p : Point α} (h : g.moveTo? grid s p = some g') :
    (∃ anchorBeat note length, g = .drawing anchorBeat note ∧
      g' = .drawing anchorBeat { note with duration := Scalar.larger length s.snapUnit }) ∨
    (∃ grabbed captured beatOffset pitchOffset deltaBeat deltaPitch deltaBeat' distance,
      g = .moving grabbed captured beatOffset pitchOffset deltaBeat deltaPitch ∧
      g' = .moving grabbed captured beatOffset pitchOffset deltaBeat' (Pitch.wrap distance)) ∨
    (∃ id originStart originDuration duration length,
      g = .resizing id originStart originDuration duration ∧
      g' = .resizing id originStart originDuration (Scalar.larger length s.snapUnit)) ∨
    ∃ anchor cursor, g = .marquee anchor cursor ∧ g' = .marquee anchor p := by
  cases g with
  | idle => cases h
  | drawing anchorBeat note =>
      cases h
      exact .inl ⟨_, _, _, rfl, rfl⟩
  | moving grabbed captured beatOffset pitchOffset deltaBeat deltaPitch =>
      simp only [moveTo?] at h
      split at h
      · cases h
      · cases h
        exact .inr (.inl ⟨_, _, _, _, _, _, _, _, rfl, rfl⟩)
  | resizing id originStart originDuration duration =>
      cases h
      exact .inr (.inr (.inl ⟨_, _, _, _, _, rfl, rfl⟩))
  | marquee anchor cursor =>
      cases h
      exact .inr (.inr (.inr ⟨_, _, rfl, rfl⟩))

/-- A gesture that goes on stays what it is. -/
theorem Gesture.moveTo?_kind [Scalar α] {g g' : Gesture α} {grid : Grid α} {s : Session α}
    {p : Point α} (h : g.moveTo? grid s p = some g') :
    g'.isIdle = g.isIdle ∧ g'.changesNotes = g.changesNotes := by
  rcases moveTo?_forms h with ⟨_, _, _, rfl, rfl⟩ | ⟨_, _, _, _, _, _, _, _, rfl, rfl⟩ |
    ⟨_, _, _, _, _, rfl, rfl⟩ | ⟨_, _, rfl, rfl⟩ <;> exact ⟨rfl, rfl⟩

namespace GestureEditor

variable [Scalar α]

theorem mem_of_hitTest? {e : GestureEditor α} {s : Session α} {p : Point α} {n : Note α}
    (h : e.hitTest? s p = some n) : n ∈ s.document.notes := by
  have hmem := List.mem_of_getLast? h
  have heditable := (List.mem_filter.1 hmem).1
  have hvisible := (List.mem_filter.1 heditable).1
  exact (List.mem_filter.1 hvisible).1

/-- The press began a gesture: the editor was idle and is not any more. -/
structure Begins (e : GestureEditor α) (s : Session α) (press : Press α) : Prop where
  outcome : press.outcome = .started
  idle : e.isIdle = true
  busy : press.editor.isIdle = false
  /-- All that the session may lose is a fresh identity and what was selected. -/
  session : ∃ selection nextId,
    press.session = { s with selection, document := { s.document with nextId } } ∧
    (s.selection.Lives s.document → selection.Lives s.document)

theorem begins_beginDraw {e : GestureEditor α} (s : Session α) (p : Point α)
    (h : e.isIdle = true) : Begins e s (e.beginDraw s p) :=
  ⟨rfl, h, rfl, s.selection, s.document.nextId + 1, rfl, id⟩

omit [Scalar α] in
theorem begins_beginResize {e : GestureEditor α} (s : Session α) (n : Note α)
    (h : e.isIdle = true) : Begins e s (e.beginResize s n) :=
  ⟨rfl, h, rfl, s.selection, s.document.nextId, rfl, id⟩

theorem begins_beginMove {e : GestureEditor α} {s : Session α} (p : Point α) {n : Note α}
    (h : e.isIdle = true) (hn : n ∈ s.document.notes) : Begins e s (e.beginMove s p n) := by
  refine ⟨rfl, h, rfl, _, s.document.nextId, rfl, fun hlive => ?_⟩
  show Selection.Lives (if s.selection.contains n.id then s.selection else .only n.id) s.document
  split
  · exact hlive
  · exact Selection.lives_only (Document.contains_iff.2 (List.mem_map_of_mem hn))

/-- A press begins a gesture just if it can: with the primary button, and with
a tool that does not erase. -/
theorem pointerDown_started_iff (e : GestureEditor α) (s : Session α) (p : Point α)
    (button : PointerButton) :
    (e.pointerDown s p button).outcome = .started ↔
      e.isIdle = true ∧ button = .primary ∧ s.tool ≠ .erase := by
  rw [pointerDown]
  split
  · next hidle =>
      split
      · next n hhit =>
          rw [pressNote]
          cases button with
          | secondary => exact ⟨fun h => GestureOutcome.noConfusion h, fun h => nomatch h.2.1⟩
          | primary =>
              cases htool : s.tool with
              | erase => exact ⟨fun h => GestureOutcome.noConfusion h, fun h => absurd rfl h.2.2⟩
              | draw | select =>
                  rw [if_neg (by decide)]
                  refine ⟨fun _ => ⟨hidle, rfl, Tool.noConfusion⟩, fun _ => ?_⟩
                  split <;> rfl
      · rw [pressEmpty.eq_def]
        cases button with
        | secondary => exact ⟨fun h => GestureOutcome.noConfusion h, fun h => nomatch h.2.1⟩
        | primary =>
            cases s.tool with
            | erase => exact ⟨fun h => GestureOutcome.noConfusion h, fun h => absurd rfl h.2.2⟩
            | draw | select => exact ⟨fun _ => ⟨hidle, rfl, Tool.noConfusion⟩, fun _ => rfl⟩
  · next hbusy => exact ⟨fun h => GestureOutcome.noConfusion h, fun h => absurd h.1 hbusy⟩

/-- A press is ignored, deletes the note it hits, or begins one of the gestures. -/
theorem pointerDown_forms (e : GestureEditor α) (s : Session α) (p : Point α)
    (button : PointerButton) :
    e.pointerDown s p button = ⟨.ignored, e, s, none⟩ ∨
    (∃ n ∈ s.document.notes,
      e.pointerDown s p button = ⟨.deleted n.id, e, (s.deleteNote n.id).2, none⟩) ∨
    e.isIdle = true ∧
      (e.pointerDown s p button = e.beginDraw s p ∨
      (∃ n ∈ s.document.notes, e.pointerDown s p button = e.beginResize s n) ∨
      (∃ n ∈ s.document.notes, e.pointerDown s p button = e.beginMove s p n) ∨
      e.pointerDown s p button = ⟨.started, { e with gesture := .marquee p p }, s, none⟩) := by
  rw [pointerDown]
  split
  · next hidle =>
      split
      · next n hhit =>
          have hn := mem_of_hitTest? hhit
          rw [pressNote]
          split
          · exact .inr (.inl ⟨n, hn, rfl⟩)
          · split
            · exact .inr (.inr ⟨hidle, .inr (.inl ⟨n, hn, rfl⟩)⟩)
            · exact .inr (.inr ⟨hidle, .inr (.inr (.inl ⟨n, hn, rfl⟩))⟩)
      · rw [pressEmpty.eq_def]
        split
        · exact .inr (.inr ⟨hidle, .inl rfl⟩)
        · exact .inr (.inr ⟨hidle, .inr (.inr (.inr rfl))⟩)
        · exact .inl rfl
  · exact .inl rfl

/-- Everything a press can do. -/
theorem pointerDown_cases (e : GestureEditor α) (s : Session α) (p : Point α)
    (button : PointerButton) :
    e.pointerDown s p button = ⟨.ignored, e, s, none⟩ ∨
    (∃ n ∈ s.document.notes,
      e.pointerDown s p button = ⟨.deleted n.id, e, (s.deleteNote n.id).2, none⟩) ∨
    Begins e s (e.pointerDown s p button) := by
  rcases e.pointerDown_forms s p button with
    hignored | hdeleted | ⟨hidle, hdraw | ⟨n, -, hresize⟩ | ⟨n, hn, hmove⟩ | hmarquee⟩
  · exact .inl hignored
  · exact .inr (.inl hdeleted)
  · exact .inr (.inr (hdraw ▸ begins_beginDraw s p hidle))
  · exact .inr (.inr (hresize ▸ begins_beginResize s n hidle))
  · exact .inr (.inr (hmove ▸ begins_beginMove p hidle hn))
  · exact .inr (.inr (hmarquee ▸ ⟨rfl, hidle, rfl, s.selection, s.document.nextId, rfl, id⟩))

theorem begins_of_started {e : GestureEditor α} {s : Session α} {p : Point α}
    {button : PointerButton} (h : (e.pointerDown s p button).outcome = .started) :
    Begins e s (e.pointerDown s p button) := by
  rcases e.pointerDown_cases s p button with hignored | ⟨n, -, hdeleted⟩ | hbegins
  · rw [hignored] at h
    cases h
  · rw [hdeleted] at h
    cases h
  · exact hbegins

theorem pointerMove_kind (e : GestureEditor α) (s : Session α) (p : Point α) :
    (e.pointerMove s p).2.isIdle = e.isIdle ∧
      (e.pointerMove s p).2.gesture.changesNotes = e.gesture.changesNotes := by
  rw [pointerMove]
  split
  · exact ⟨rfl, rfl⟩
  · next g h => exact Gesture.moveTo?_kind h

/-- Everything a release can do. The editor is idle after each. -/
theorem pointerUp_cases (e : GestureEditor α) (s : Session α) :
    (e.isIdle = true ∧ e.pointerUp s = (.ignored, e.cancel, s)) ∨
    (e.isIdle = false ∧ ∃ notes selection,
      e.pointerUp s = (.committed, e.cancel, { s.commitNotes notes with selection }) ∧
      selection.Lives (s.commitNotes notes).document) ∨
    (e.isIdle = false ∧ ∃ count selection,
      e.pointerUp s = (.selected count, e.cancel, { s with selection }) ∧
      selection.Lives s.document) := by
  obtain ⟨gesture, grid, edgeMargin⟩ := e
  cases gesture with
  | idle => exact .inl ⟨rfl, rfl⟩
  | drawing anchorBeat note =>
      refine .inr (.inl ⟨rfl, s.document.notes ++ [note], .only note.id, rfl, ?_⟩)
      refine Selection.lives_only (Document.contains_iff.2 ?_)
      exact List.mem_map_of_mem (List.mem_append_right _ (List.mem_singleton.2 rfl))
  | moving grabbed captured beatOffset pitchOffset deltaBeat deltaPitch =>
      exact .inr (.inl ⟨rfl, _, _, rfl, Selection.lives_prune _ _⟩)
  | resizing id originStart originDuration duration =>
      exact .inr (.inl ⟨rfl, _, _, rfl, Selection.lives_prune _ _⟩)
  | marquee anchor cursor =>
      refine .inr (.inr ⟨rfl, _, _, rfl, fun id hid => ?_⟩)
      obtain ⟨n, hn, rfl⟩ := List.mem_map.1 (Selection.mem_ofList.1 hid)
      have hvisible := (List.mem_filter.1 hn).1
      exact Document.contains_iff.2 (List.mem_map_of_mem (List.mem_filter.1 hvisible).1)

theorem pointerUp_editor (e : GestureEditor α) (s : Session α) :
    (e.pointerUp s).2.1 = e.cancel := by
  rcases e.pointerUp_cases s with ⟨-, h⟩ | ⟨-, notes, selection, h, -⟩ | ⟨-, count, selection, h, -⟩
  all_goals rw [h]

/-- A press and a move leave the grid where it is. -/
theorem pointerDown_grid (e : GestureEditor α) (s : Session α) (p : Point α)
    (button : PointerButton) : (e.pointerDown s p button).editor.grid = e.grid := by
  rcases e.pointerDown_forms s p button with
    h | ⟨n, -, h⟩ | ⟨-, h | ⟨n, -, h⟩ | ⟨n, -, h⟩ | h⟩
  all_goals exact congrArg (fun press => press.editor.grid) h

theorem pointerMove_grid (e : GestureEditor α) (s : Session α) (p : Point α) :
    (e.pointerMove s p).2.grid = e.grid := by
  rw [pointerMove]
  split <;> rfl

/-- A release commits just the gestures that change notes. -/
theorem pointerUp_committed_iff (e : GestureEditor α) (s : Session α) :
    (e.pointerUp s).1 = .committed ↔ e.gesture.changesNotes = true := by
  obtain ⟨gesture, grid, edgeMargin⟩ := e
  cases gesture with
  | idle => exact ⟨fun h => GestureOutcome.noConfusion h, fun h => Bool.noConfusion h⟩
  | drawing anchorBeat note => exact ⟨fun _ => rfl, fun _ => rfl⟩
  | moving grabbed captured beatOffset pitchOffset deltaBeat deltaPitch =>
      exact ⟨fun _ => rfl, fun _ => rfl⟩
  | resizing id originStart originDuration duration => exact ⟨fun _ => rfl, fun _ => rfl⟩
  | marquee anchor cursor =>
      exact ⟨fun h => GestureOutcome.noConfusion h, fun h => Bool.noConfusion h⟩

end GestureEditor

/-! ## The velocity lane -/

namespace VelocityEditor

variable [Scalar α]

theorem nearer_some (beat : α) (b n : Note α) :
    nearer beat (some b) n = if distance beat b < distance beat n then some b else some n := rfl

theorem foldl_nearer_mem {beat : α} {notes : List (Note α)} {init : Option (Note α)}
    {b : Note α} (h : notes.foldl (nearer beat) init = some b) : b ∈ notes ∨ init = some b := by
  induction notes generalizing init with
  | nil => exact .inr h
  | cons n rest ih =>
      rcases ih h with hrest | hstep
      · exact .inl (List.mem_cons_of_mem _ hrest)
      · cases init with
        | none => exact .inl (Option.some.inj hstep ▸ List.mem_cons_self)
        | some a =>
            rw [nearer_some] at hstep
            split at hstep
            · exact .inr hstep
            · exact .inl (Option.some.inj hstep ▸ List.mem_cons_self)

theorem mem_of_hitTest? {s : Session α} {beat : α} {n : Note α} (h : hitTest? s beat = some n) :
    n ∈ s.document.notes := by
  rcases foldl_nearer_mem h with hmem | hnone
  · exact (List.mem_filter.1 (List.mem_filter.1 hmem).1).1
  · cases hnone

theorem apply_cases (e : VelocityEditor α) (s : Session α) (y : α) :
    (e.editing = none ∧ e.apply s y = s) ∨
    ∃ id, e.editing = some id ∧ e.apply s y = s.preview id (e.lane.velocityAt y) := by
  rw [apply]
  split
  · next h => exact .inl ⟨h, rfl⟩
  · next id h => exact .inr ⟨id, h, rfl⟩

/-- Everything a press can do. -/
theorem pointerDown_cases (e : VelocityEditor α) (s : Session α) (beat y : α) :
    (hitTest? s beat = none ∧ e.pointerDown s beat y = (false, e, s)) ∨
    ∃ n, hitTest? s beat = some n ∧ e.pointerDown s beat y =
      (true, { e with editing := some n.id }, s.preview n.id (e.lane.velocityAt y)) := by
  rw [pointerDown]
  split
  · next h => exact .inl ⟨h, rfl⟩
  · next n h => exact .inr ⟨n, h, rfl⟩

omit [Scalar α] in
/-- Everything a release can do. -/
theorem pointerUp_cases (e : VelocityEditor α) (s : Session α) :
    (e.editing = none ∧ e.pointerUp s = (false, e, s)) ∨
    (e.editing.isSome = true ∧
      e.pointerUp s = (true, { e with editing := none }, s.commitCurrent)) := by
  rw [pointerUp]
  split
  · next h => exact .inl ⟨h, rfl⟩
  · next id h => exact .inr ⟨by rw [h]; rfl, rfl⟩

/-- The velocity of a note in the present snapshot, if it is there. -/
def committed? (s : Session α) (id : NoteId) : Option Nat :=
  (s.history.present.find? fun n => n.id == id).map (·.velocity)

omit [Scalar α] in
/-- Everything that abandoning an edit can do. -/
theorem cancel_cases (e : VelocityEditor α) (s : Session α) :
    (e.editing = none ∧ e.cancel s = (false, e, s)) ∨
    ∃ id, e.editing = some id ∧ e.cancel s =
      (true, { e with editing := none }, ((committed? s id).map (s.preview id)).getD s) := by
  rw [cancel]
  split
  · next h => exact .inl ⟨h, rfl⟩
  · next id h =>
      refine .inr ⟨id, h, ?_⟩
      rw [committed?]
      cases s.history.present.find? fun n => n.id == id with
      | none => rfl
      | some n => rfl

omit [Scalar α] in
theorem cancel_editing (e : VelocityEditor α) (s : Session α) :
    (e.cancel s).2.1.editing = none := by
  rcases e.cancel_cases s with ⟨hnone, h⟩ | ⟨id, -, h⟩
  · rw [h]
    exact hnone
  · rw [h]

omit [Scalar α] in
theorem cancel_history (e : VelocityEditor α) (s : Session α) :
    (e.cancel s).2.2.history = s.history := by
  rcases e.cancel_cases s with ⟨-, h⟩ | ⟨id, -, h⟩
  · rw [h]
  · rw [h]
    cases committed? s id <;> rfl

omit [Scalar α] in
/-- Abandoning an edit takes back one velocity. Nothing is left uncommitted
just if nothing else was shown. -/
theorem cancel_settled_iff {e : VelocityEditor α} {s : Session α} {id : NoteId}
    (h : e.editing = some id) :
    (e.cancel s).2.2.document.notes = (e.cancel s).2.2.history.present ↔
      ∃ velocity, s.document.notes = revoiced id velocity s.history.present := by
  rcases e.cancel_cases s with ⟨hnone, -⟩ | ⟨id', hid', heq⟩
  · rw [hnone] at h
    cases h
  · obtain rfl : id' = id := Option.some.inj (hid'.symm.trans h)
    rw [heq, committed?]
    cases hfind : s.history.present.find? fun n => n.id == id' with
    | none =>
        show s.document.notes = s.history.present ↔ _
        simp only [revoiced_of_absent hfind, exists_const]
    | some n =>
        show revoiced id' n.velocity s.document.notes = s.history.present ↔ _
        constructor
        · intro hback
          obtain ⟨velocity, hown⟩ := exists_revoiced_eq id' s.document.notes
          refine ⟨velocity, ?_⟩
          rw [← hback, revoiced_revoiced, hown]
        · rintro ⟨velocity, hshown⟩
          rw [hshown, revoiced_revoiced, revoiced_own hfind]

end VelocityEditor

end NoteRoll
