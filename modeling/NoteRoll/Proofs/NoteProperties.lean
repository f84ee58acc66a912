import NoteRoll.Proofs.Identities

/-!
# What every note keeps

Notes come into being in one way, and later their velocity, place and length are
changed in a few others. A property of a single note that survives each of these
survives everything that can be done to a piece, and holds of every note in the
document, in the snapshots, in the clipboard and among those of a gesture.

Which properties those are is said by `Note.Kept`, for any arithmetic. Where a
note goes on the grid depends on the grid, so the grid has a property of its own
to keep.
-/

namespace NoteRoll

variable {α : Type} {P : Note α → Prop}

/-- Every note that a session has. -/
def Session.Every (P : Note α → Prop) (s : Session α) : Prop :=
  ∀ notes, s.Holds notes → ∀ n ∈ notes, P n

namespace Session

variable {s s' : Session α}

theorem Every.document (h : s.Every P) : ∀ n ∈ s.document.notes, P n := h _ (.inl rfl)

/-- All that a session has it had before, or it is such as is wanted. -/
theorem Every.of_holds (h : s.Every P)
    (hlists : ∀ notes, s'.Holds notes → s.Holds notes ∨ ∀ n ∈ notes, P n) : s'.Every P := by
  intro notes hnotes
  rcases hlists notes hnotes with hold | hnew
  · exact h notes hold
  · exact hnew

theorem Every.keeps (h : s.Every P) (hkeeps : s.Keeps s') : s'.Every P := by
  refine h.of_holds ?_
  rintro notes (rfl | rfl | hlog)
  · exact .inl (.inl hkeeps.notes)
  · exact .inl (.inr (.inl hkeeps.clipboard))
  · exact .inl (.inr (.inr (hkeeps.history ▸ hlog)))

/-- A move that previews nothing brings in what it commits, and no more. -/
theorem Every.committed (h : s.Every P) (hhistory : s'.history = s.history.commit s'.document.notes)
    (hclip : s'.clipboard = s.clipboard) (hnotes : ∀ n ∈ s'.document.notes, P n) :
    s'.Every P := by
  refine h.of_holds ?_
  rintro notes (rfl | rfl | hlog)
  · exact .inr hnotes
  · exact .inl (.inr (.inl hclip))
  · rw [hhistory] at hlog
    rcases History.mem_log_commit hlog with rfl | hold
    · exact .inr hnotes
    · exact .inl (.inr (.inr hold))

theorem Every.commitNotes (h : s.Every P) {notes : List (Note α)} (hnotes : ∀ n ∈ notes, P n) :
    (s.commitNotes notes).Every P := Every.committed h rfl rfl hnotes

theorem Every.commitThinned (h : s.Every P) (p : Note α → Bool) :
    (s.commitNotes (s.document.notes.filter p)).Every P :=
  h.commitNotes fun n hn => h.document n (List.mem_filter.1 hn).1

/-- The selection is no matter of what the notes are like. -/
theorem Every.select (h : s.Every P) (selection : Selection) :
    Every P { s with selection } := h

theorem Every.commitCurrent (h : s.Every P) : s.commitCurrent.Every P :=
  Every.committed h rfl rfl h.document

/-- A step back or forth shows a snapshot and keeps the others. -/
theorem Every.travelled (h : s.Every P) {history : History (List (Note α))}
    (hlog : history.log = s.history.log) :
    ({ s with history }.showNotes history.present).Every P := by
  refine h.of_holds ?_
  rintro notes (rfl | rfl | hmem)
  · exact .inl (.inr (.inr (hlog ▸ history.present_mem_log)))
  · exact .inl (.inr (.inl rfl))
  · exact .inl (.inr (.inr (hlog ▸ hmem)))

theorem Every.undo (h : s.Every P) : s.undo.2.Every P := by
  rw [Session.undo]
  split
  · exact h
  · next history hback => exact h.travelled (History.log_undo? hback)

theorem Every.redo (h : s.Every P) : s.redo.2.Every P := by
  rw [Session.redo]
  split
  · exact h
  · next history hforth => exact h.travelled (History.log_redo? hforth)

theorem Every.deleteNote (h : s.Every P) (id : NoteId) : (s.deleteNote id).2.Every P := by
  rw [Session.deleteNote]
  split
  · exact h.commitThinned _
  · exact h

theorem Every.deleteSelected (h : s.Every P) : s.deleteSelected.2.Every P := by
  rw [Session.deleteSelected]
  split
  · exact h
  · exact (h.commitThinned _).select _

theorem Every.copySelected (h : s.Every P) : s.copySelected.2.Every P := by
  refine h.of_holds ?_
  rintro notes (rfl | rfl | hlog)
  · exact .inl (.inl rfl)
  · exact .inr fun n hn => h.document n (List.mem_filter.1 hn).1
  · exact .inl (.inr (.inr hlog))

theorem Every.preview (h : s.Every P) {id : NoteId} {velocity : Nat}
    (hvelocity : ∀ n, P n → P { n with velocity }) : (s.preview id velocity).Every P := by
  refine h.of_holds ?_
  rintro notes (rfl | rfl | hlog)
  · exact .inr fun n hn => forall_mem_updateFirst h.document hvelocity n hn
  · exact .inl (.inr (.inl rfl))
  · exact .inl (.inr (.inr hlog))

end Session

/-! ## Properties that are kept -/

variable [Scalar α]

/-- A property of notes, and one of grids, that all ways to change a note keep. -/
structure Note.Kept (P : Note α → Prop) (G : Grid α → Prop) : Prop where
  ofFields : ∀ id pitch start duration velocity track,
    P (.ofFields id pitch start duration velocity track)
  asLoud : ∀ {m n : Note α}, P m → P n → P { n with velocity := m.velocity }
  asLong : ∀ {m n : Note α}, P m → P n → P { n with duration := m.duration }
  atHeight : ∀ {n : Note α} (lane : VelocityLane α) (y : α), P n →
    P { n with velocity := lane.velocityAt y }
  stretched : ∀ {n : Note α} (s : Session α) (length : α), P n →
    P { n with duration := Scalar.larger length s.snapUnit }
  moved : ∀ {grid : Grid α} {n : Note α} (deltaBeat : α) (deltaPitch : Int), G grid → P n →
    P (Gesture.moveNote grid deltaBeat deltaPitch n)
  scrolled : ∀ {grid : Grid α} (semitones : Int), G grid → G (grid.scrollPitch semitones)
  centered : ∀ {grid : Grid α} (center rows : Nat), G grid → G (grid.centerOn center rows)

variable {G : Grid α → Prop}

namespace Session

variable {s : Session α}

theorem Every.pasteAt (hP : Note.Kept P G) (h : s.Every P) (beat : α) :
    (s.pasteAt beat).2.Every P := by
  rw [Session.pasteAt.eq_def]
  split
  · exact h
  · next first others hclip =>
      have hnotes : ∀ n ∈ s.document.notes ++ s.clipboard.mapIdx (fun i n =>
          pasteNote (s.document.nextId + i) beat (earliest first others) n), P n := by
        intro n hn
        rcases List.mem_append.1 hn with hn | hn
        · exact h.document n hn
        · obtain ⟨i, hi, rfl⟩ := List.mem_mapIdx.1 hn
          exact hP.ofFields ..
      exact h.commitNotes hnotes

theorem Every.applyPiece (hP : Note.Kept P G) (h : s.Every P) (p : Piece α) :
    (s.applyPiece p).2.Every P := by
  obtain ⟨hnotes, -, hclip⟩ := s.applyPiece_notes p
  refine Every.committed h (s.applyPiece_step p).moves.history_eq hclip fun n hn => ?_
  rw [hnotes] at hn
  obtain ⟨i, hi, rfl⟩ := List.mem_mapIdx.1 hn
  exact hP.ofFields ..

theorem Every.applyResult {ε : Type} (hP : Note.Kept P G) (h : s.Every P)
    (r : Except ε (Piece α)) : (s.applyResult r).2.Every P := by
  cases r with
  | error e => exact h
  | ok p => exact Every.applyPiece hP h p

end Session

/-! ## The editors -/

/-- Every note that a gesture knows, and those it may still make. -/
def Gesture.Every (P : Note α → Prop) : Gesture α → Prop
  | .idle | .marquee _ _ => True
  | .drawing _ note => P note
  | .moving _ captured _ _ _ _ => ∀ n ∈ captured, P n
  | .resizing _ _ _ duration => ∀ n, P n → P { n with duration }

namespace GestureEditor

variable {s : Session α} {e : GestureEditor α}

/-- The provisional notes are like the notes they stand in for. -/
theorem every_ghosts (hP : Note.Kept P G) (hs : s.Every P) (hg : e.gesture.Every P)
    (hgrid : G e.grid) : ∀ n ∈ e.ghosts s, P n := by
  obtain ⟨gesture, grid, edgeMargin⟩ := e
  cases gesture with
  | idle => exact fun n hn => absurd hn List.not_mem_nil
  | drawing anchorBeat note => exact fun n hn => List.mem_singleton.1 hn ▸ hg
  | moving grabbed captured beatOffset pitchOffset deltaBeat deltaPitch =>
      intro n hn
      obtain ⟨m, hm, rfl⟩ := List.mem_map.1 hn
      exact hP.moved _ _ hgrid (hg m hm)
  | resizing id originStart originDuration duration =>
      intro n hn
      simp only [ghosts, Gesture.ghosts] at hn
      split at hn
      · next m hm =>
          rw [List.mem_singleton.1 hn]
          exact hg m (hs.document m (List.mem_of_find?_eq_some hm))
      · cases hn
  | marquee anchor cursor => exact fun n hn => absurd hn List.not_mem_nil

omit [Scalar α] in
theorem mem_replaceByGhosts {notes ghosts : List (Note α)} {n : Note α}
    (hn : n ∈ replaceByGhosts notes ghosts) : n ∈ ghosts ∨ n ∈ notes := by
  obtain ⟨m, hm, rfl⟩ := List.mem_map.1 hn
  cases h : ghosts.find? fun g => g.id == m.id with
  | none => exact .inr hm
  | some g => exact .inl (List.mem_of_find?_eq_some h)

theorem every_moveTo (hP : Note.Kept P G) (hg : e.gesture.Every P) (p : Point α) :
    (e.pointerMove s p).2.gesture.Every P := by
  obtain ⟨gesture, grid, edgeMargin⟩ := e
  rw [pointerMove]
  split
  · exact hg
  · next g hmove =>
      show g.Every P
      rcases Gesture.moveTo?_forms hmove with ⟨_, _, length, rfl, rfl⟩ |
        ⟨_, _, _, _, _, _, _, _, rfl, rfl⟩ | ⟨_, _, _, _, length, rfl, rfl⟩ | ⟨_, _, rfl, rfl⟩
      · exact hP.stretched s length hg
      · exact hg
      · exact fun n hn => hP.stretched s length hn
      · trivial

theorem every_pointerDown (hP : Note.Kept P G) (hs : s.Every P) (hg : e.gesture.Every P)
    (p : Point α) (button : PointerButton) :
    (e.pointerDown s p button).session.Every P ∧
      (e.pointerDown s p button).editor.gesture.Every P := by
  rcases e.pointerDown_forms s p button with
    h | ⟨n, -, h⟩ | ⟨-, h | ⟨n, hn, h⟩ | ⟨n, -, h⟩ | h⟩
  · rw [h]
    exact ⟨hs, hg⟩
  · rw [h]
    exact ⟨hs.deleteNote n.id, hg⟩
  · rw [h]
    exact ⟨hs, hP.ofFields ..⟩
  · rw [h]
    exact ⟨hs, fun m hm => hP.asLong (hs.document n hn) hm⟩
  · rw [h]
    exact ⟨hs.select _, fun m hm => hs.document m (List.mem_filter.1 hm).1⟩
  · rw [h]
    exact ⟨hs, trivial⟩

theorem every_pointerUp (hP : Note.Kept P G) (hs : s.Every P) (hg : e.gesture.Every P)
    (hgrid : G e.grid) : (e.pointerUp s).2.2.Every P := by
  have hghosts := every_ghosts hP hs hg hgrid
  have hreplaced : ∀ n ∈ replaceByGhosts s.document.notes (e.ghosts s), P n := by
    intro n hn
    rcases mem_replaceByGhosts hn with hn | hn
    · exact hghosts n hn
    · exact hs.document n hn
  obtain ⟨gesture, grid, edgeMargin⟩ := e
  cases gesture with
  | idle => exact hs
  | drawing anchorBeat note =>
      refine Session.Every.select (hs.commitNotes fun n hn => ?_) _
      rcases List.mem_append.1 hn with hn | hn
      · exact hs.document n hn
      · exact List.mem_singleton.1 hn ▸ hg
  | moving grabbed captured beatOffset pitchOffset deltaBeat deltaPitch =>
      exact hs.commitNotes hreplaced
  | resizing id originStart originDuration duration => exact hs.commitNotes hreplaced
  | marquee anchor cursor => exact hs.select _

end GestureEditor

namespace VelocityEditor

variable {s : Session α}

theorem every_apply (hP : Note.Kept P G) (hs : s.Every P) (e : VelocityEditor α) (y : α) :
    (e.apply s y).Every P := by
  rcases e.apply_cases s y with ⟨-, h⟩ | ⟨id, -, h⟩
  · rw [h]
    exact hs
  · rw [h]
    exact hs.preview fun n hn => hP.atHeight _ _ hn

theorem every_pointerDown (hP : Note.Kept P G) (hs : s.Every P) (e : VelocityEditor α)
    (beat y : α) : (e.pointerDown s beat y).2.2.Every P := by
  rcases e.pointerDown_cases s beat y with ⟨-, h⟩ | ⟨n, -, h⟩
  · rw [h]
    exact hs
  · rw [h]
    exact hs.preview fun n hn => hP.atHeight _ _ hn

omit [Scalar α] in
theorem every_pointerUp (hs : s.Every P) (e : VelocityEditor α) :
    (e.pointerUp s).2.2.Every P := by
  rcases e.pointerUp_cases s with ⟨-, h⟩ | ⟨-, h⟩
  · rw [h]
    exact hs
  · rw [h]
    exact hs.commitCurrent

/-- An abandoned drag shows a velocity that some note had. -/
theorem every_cancel (hP : Note.Kept P G) (hs : s.Every P) (e : VelocityEditor α) :
    (e.cancel s).2.2.Every P := by
  rcases e.cancel_cases s with ⟨-, h⟩ | ⟨id, -, h⟩
  · rw [h]
    exact hs
  · rw [h]
    cases hcommitted : committed? s id with
    | none => exact hs
    | some velocity =>
        obtain ⟨m, hm, rfl⟩ := Option.map_eq_some_iff.1 hcommitted
        have hmem := List.mem_of_find?_eq_some hm
        exact hs.preview fun n hn => hP.asLoud (hs _ Session.Holds.present m hmem) hn

end VelocityEditor

/-! ## Events -/

namespace Studio

variable {σ : Type}

/-- Every note of a studio has a property, and its grid has one too. -/
structure Every (P : Note α → Prop) (G : Grid α → Prop) (s : Studio σ α) : Prop where
  session : s.session.Every P
  gesture : s.gestures.gesture.Every P
  grid : G s.gestures.grid

/-- What is committed from outside has a property. -/
def Brings (P : Note α → Prop) (_ : Studio σ α) : Event α → Prop
  | .commitNotes notes => ∀ n ∈ notes, P n
  | _ => True

theorem Fresh.every {s : Studio σ α} {d : Document α} (h : s.Fresh d)
    (hd : ∀ n ∈ d.notes, P n) (hgrid : G s.gestures.grid) : s.Every P G := by
  refine ⟨?_, ?_, hgrid⟩
  · rw [h.session]
    rintro notes (rfl | rfl | hlog)
    · exact hd
    · exact fun n hn => absurd hn List.not_mem_nil
    · exact List.mem_singleton.1 hlog ▸ hd
  · rw [h.idle]
    trivial

variable [NumberText α] [SoundOutput σ α] {s : Studio σ α}

theorem Every.session_next (hP : Note.Kept P G) (hs : s.Every P G) {e : Event α}
    (he : s.Brings P e) : (s.next e).session.Every P := by
  have hsession := hs.session
  by_cases hspares : e.sparesNotes = true
  · exact hsession.keeps (s.next_keeps hspares)
  · cases e with
    | commitNotes notes => exact hsession.commitNotes he
    | commitCurrent => exact hsession.commitCurrent
    | undo => exact hsession.undo
    | redo => exact hsession.redo
    | deleteNote id => exact hsession.deleteNote id
    | deleteSelected => exact hsession.deleteSelected
    | select ids => exact hsession.select _
    | copySelected => exact hsession.copySelected
    | pasteAt beat => exact Session.Every.pasteAt hP hsession beat
    | applyPiece piece => exact Session.Every.applyPiece hP hsession piece
    | importText text => exact Session.Every.applyResult hP hsession _
    | generate service prompt =>
        have hidle : Session.Every P { s.session with remote := .idle } := hsession
        exact Session.Every.applyResult hP hidle _
    | gridDown p button =>
        exact (GestureEditor.every_pointerDown hP hsession hs.gesture p button).1
    | gridUp => exact GestureEditor.every_pointerUp hP hsession hs.gesture hs.grid
    | laneDown beat y => exact VelocityEditor.every_pointerDown hP hsession s.velocities beat y
    | laneMove y => exact VelocityEditor.every_apply hP hsession s.velocities y
    | laneUp => exact VelocityEditor.every_pointerUp hsession s.velocities
    | laneCancel => exact VelocityEditor.every_cancel hP hsession s.velocities
    | _ => exact absurd rfl hspares

theorem Every.next (hP : Note.Kept P G) (hs : s.Every P G) {e : Event α}
    (he : s.Brings P e) : (s.next e).Every P G := by
  refine ⟨hs.session_next hP he, ?_, ?_⟩
  · cases e with
    | gridDown p button =>
        exact (GestureEditor.every_pointerDown hP hs.session hs.gesture p button).2
    | gridMove p => exact GestureEditor.every_moveTo hP hs.gesture p
    | gridUp =>
        show Gesture.Every P (s.gestures.pointerUp s.session).2.1.gesture
        rw [GestureEditor.pointerUp_editor]
        trivial
    | gridCancel => trivial
    | _ => exact hs.gesture
  · cases e with
    | gridDown p button =>
        show G (s.gestures.pointerDown s.session p button).editor.grid
        rw [GestureEditor.pointerDown_grid]
        exact hs.grid
    | gridMove p =>
        show G (s.gestures.pointerMove s.session p).2.grid
        rw [GestureEditor.pointerMove_grid]
        exact hs.grid
    | gridUp =>
        show G (s.gestures.pointerUp s.session).2.1.grid
        rw [GestureEditor.pointerUp_editor]
        exact hs.grid
    | scrollPitch semitones => exact hP.scrolled semitones hs.grid
    | centerOn center rows => exact hP.centered center rows hs.grid
    | _ => exact hs.grid

end Studio

end NoteRoll
