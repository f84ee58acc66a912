import Mathlib.Data.List.Forall2
import NoteRoll.Proofs.NoteRanges

/-!
# Pasting

A paste copies the clipboard to another place: every note keeps its fields, all
onsets are moved by one distance, and the earliest comes to lie on the wanted
beat. The copies are made by `Note.ofFields`, which would bring a stray field into
its range; that it changes none is owed to the clipboard being in range, and to
the wanted beat not being before the beginning, since no onset is moved to before
the earliest one.

The identities of the copies are counted up from the next one, so they are new if
that is beyond all in use. `Session.Ahead` says that it is, and asks nothing of
the notes that are committed: a commit moves the next identity beyond whatever it
brings. This is less than what it takes for identities to be told apart, and it
holds in more states.
-/

namespace NoteRoll

variable {α : Type}

/-! ## The next identity is ahead -/

namespace Session

variable {s s' : Session α}

/-- The next identity is beyond all that are in use. -/
def Ahead (s : Session α) : Prop := ∀ id, s.Uses id → id < s.document.nextId

/-- The next identity does not go back, and what has come to the notes and the
clipboard was in use, or is behind it. -/
structure Advances (s s' : Session α) : Prop where
  nextId_le : s.document.nextId ≤ s'.document.nextId
  notes : ∀ id ∈ s'.document.notes.map (·.id), s.Uses id ∨ id < s'.document.nextId
  clipboard : ∀ id ∈ s'.clipboard.map (·.id), s.Uses id

theorem Advances.of_ids (hnext : s.document.nextId ≤ s'.document.nextId)
    (hids : s'.document.notes.map (·.id) = s.document.notes.map (·.id))
    (hclip : s'.clipboard = s.clipboard) : s.Advances s' where
  nextId_le := hnext
  notes _ hid := .inl ⟨_, .inl rfl, hids ▸ hid⟩
  clipboard _ hid := ⟨_, .inr (.inl rfl), hclip ▸ hid⟩

/-- Notes that are put into the document leave the next identity beyond them. -/
theorem Advances.of_idAfter_le (hnext : s.document.nextId ≤ s'.document.nextId)
    (hbeyond : Document.idAfter s'.document.notes ≤ s'.document.nextId)
    (hclip : s'.clipboard = s.clipboard) : s.Advances s' where
  nextId_le := hnext
  notes id hid := by
    obtain ⟨n, hn, rfl⟩ := List.mem_map.1 hid
    exact .inr (Nat.lt_of_lt_of_le (Document.lt_idAfter hn) hbeyond)
  clipboard _ hid := ⟨_, .inr (.inl rfl), hclip ▸ hid⟩

theorem Advances.refl (s : Session α) : s.Advances s := .of_ids (Nat.le_refl _) rfl rfl

theorem Keeps.advances (h : s.Keeps s') : s.Advances s' :=
  .of_ids (Nat.le_of_eq h.nextId.symm) (by rw [h.notes]) h.clipboard

/-- Whatever becomes of the history, notes are shown in one way. -/
theorem advances_showNotes (s : Session α) (history : History (List (Note α)))
    (notes : List (Note α)) : s.Advances ({ s with history }.showNotes notes) :=
  .of_idAfter_le (Nat.le_max_left _ _) (Nat.le_max_right _ _) rfl

theorem advances_commitNotes (s : Session α) (notes : List (Note α)) :
    s.Advances (s.commitNotes notes) := s.advances_showNotes _ notes

theorem advances_undo (s : Session α) : s.Advances s.undo.2 := by
  rw [undo]
  split
  · exact .refl s
  · exact s.advances_showNotes _ _

theorem advances_redo (s : Session α) : s.Advances s.redo.2 := by
  rw [redo]
  split
  · exact .refl s
  · exact s.advances_showNotes _ _

theorem advances_deleteNote (s : Session α) (id : NoteId) : s.Advances (s.deleteNote id).2 := by
  rw [deleteNote]
  split
  · exact s.advances_commitNotes _
  · exact .refl s

theorem advances_deleteSelected (s : Session α) : s.Advances s.deleteSelected.2 := by
  rw [deleteSelected]
  split
  · exact .refl s
  · exact .of_idAfter_le (Nat.le_max_left _ _) (Nat.le_max_right _ _) rfl

/-- What is copied is in the document. -/
theorem advances_copySelected (s : Session α) : s.Advances s.copySelected.2 where
  nextId_le := Nat.le_refl _
  notes _ hid := .inl ⟨_, .inl rfl, hid⟩
  clipboard id hid := by
    obtain ⟨n, hn, rfl⟩ := List.mem_map.1 hid
    exact ⟨_, .inl rfl, List.mem_map_of_mem (List.mem_filter.1 hn).1⟩

theorem advances_preview (s : Session α) (id : NoteId) (velocity : Nat) :
    s.Advances (s.preview id velocity) :=
  .of_ids (Nat.le_refl _) (Document.setVelocity_ids _ _ _) rfl

/-- What the history comes to hold is what it held, or the notes that were
committed. -/
theorem Ahead.moves {m : Mark} (hs : s.Ahead) (hm : s.Moves m s') (h : s.Advances s') :
    s'.Ahead := by
  have hkept : ∀ id, s.Uses id → id < s'.document.nextId :=
    fun id hid => Nat.lt_of_lt_of_le (hs id hid) h.nextId_le
  have hnotes : ∀ id ∈ s'.document.notes.map (·.id), id < s'.document.nextId := by
    intro id hid
    rcases h.notes id hid with huses | hbehind
    · exact hkept id huses
    · exact hbehind
  have hheld : ∀ notes ∈ s.history.log, ∀ id ∈ notes.map (·.id), id < s'.document.nextId :=
    fun notes hlog id hid => hkept id ⟨notes, .inr (.inr hlog), hid⟩
  rintro id ⟨notes, rfl | rfl | hlog, hid⟩
  · exact hnotes id hid
  · exact hkept id (h.clipboard id hid)
  · cases hm with
    | still history notes => exact hheld _ (history ▸ hlog) id hid
    | previewed id velocity history notes => exact hheld _ (history ▸ hlog) _ hid
    | committed history =>
        rw [history] at hlog
        rcases History.mem_log_commit hlog with rfl | hlog
        · exact hnotes id hid
        · exact hheld _ hlog id hid
    | undone history notes => exact hheld _ (History.log_undo? history ▸ hlog) id hid
    | redone history notes => exact hheld _ (History.log_redo? history ▸ hlog) id hid

variable [Scalar α]

theorem advances_pasteAt (s : Session α) (beat : α) : s.Advances (s.pasteAt beat).2 := by
  rw [pasteAt.eq_def]
  split
  · exact .refl s
  · refine .of_idAfter_le ?_ (Nat.le_max_right _ _) rfl
    exact Nat.le_trans (Nat.le_add_right _ _) (Nat.le_max_left _ _)

theorem advances_applyPiece (s : Session α) (p : Piece α) : s.Advances (s.applyPiece p).2 := by
  obtain ⟨hnotes, hnext, hclip⟩ := s.applyPiece_notes p
  refine .of_idAfter_le ?_ ?_ hclip
  · rw [hnext]
    exact Nat.le_trans (Nat.le_add_right _ _) (Nat.le_max_left _ _)
  · rw [hnotes, hnext]
    exact Nat.le_max_right _ _

theorem advances_applyResult {ε : Type} (s : Session α) (r : Except ε (Piece α)) :
    s.Advances (s.applyResult r).2 := by
  cases r with
  | error e => exact .refl s
  | ok p => exact s.advances_applyPiece p

end Session

section Editors

variable [Scalar α] (s : Session α)

theorem GestureEditor.advances_pointerDown (e : GestureEditor α) (p : Point α)
    (button : PointerButton) : s.Advances (e.pointerDown s p button).session := by
  rcases e.pointerDown_forms s p button with
    h | ⟨n, -, h⟩ | ⟨-, h | ⟨n, -, h⟩ | ⟨n, -, h⟩ | h⟩
  all_goals rw [h]
  · exact .refl s
  · exact s.advances_deleteNote n.id
  · exact .of_ids (Nat.le_succ _) rfl rfl
  all_goals exact .of_ids (Nat.le_refl _) rfl rfl

theorem GestureEditor.advances_pointerUp (e : GestureEditor α) :
    s.Advances (e.pointerUp s).2.2 := by
  rcases e.pointerUp_cases s with
    ⟨-, h⟩ | ⟨-, notes, selection, h, -⟩ | ⟨-, count, selection, h, -⟩
  all_goals rw [h]
  · exact .refl s
  · exact .of_idAfter_le (Nat.le_max_left _ _) (Nat.le_max_right _ _) rfl
  · exact .of_ids (Nat.le_refl _) rfl rfl

theorem VelocityEditor.advances_apply (e : VelocityEditor α) (y : α) :
    s.Advances (e.apply s y) := by
  rcases e.apply_cases s y with ⟨-, h⟩ | ⟨id, -, h⟩
  all_goals rw [h]
  · exact .refl s
  · exact s.advances_preview _ _

theorem VelocityEditor.advances_pointerDown (e : VelocityEditor α) (beat y : α) :
    s.Advances (e.pointerDown s beat y).2.2 := by
  rcases e.pointerDown_cases s beat y with ⟨-, h⟩ | ⟨n, -, h⟩
  all_goals rw [h]
  · exact .refl s
  · exact s.advances_preview _ _

omit [Scalar α] in
theorem VelocityEditor.advances_pointerUp (e : VelocityEditor α) :
    s.Advances (e.pointerUp s).2.2 := by
  rcases e.pointerUp_cases s with ⟨-, h⟩ | ⟨-, h⟩
  all_goals rw [h]
  · exact .refl s
  · exact .of_ids (Nat.le_refl _) rfl rfl

omit [Scalar α] in
theorem VelocityEditor.advances_cancel (e : VelocityEditor α) :
    s.Advances (e.cancel s).2.2 := by
  rcases e.cancel_cases s with ⟨-, h⟩ | ⟨id, -, h⟩
  all_goals rw [h]
  · exact .refl s
  · cases committed? s id with
    | none => exact .refl s
    | some velocity => exact s.advances_preview _ _

end Editors

namespace Studio

variable {σ : Type} [Scalar α] [NumberText α] [SoundOutput σ α]

theorem advances_next (s : Studio σ α) (e : Event α) :
    s.session.Advances (s.next e).session := by
  by_cases he : e.sparesNotes = true
  · exact (s.next_keeps he).advances
  · cases e with
    | commitNotes notes => exact s.session.advances_commitNotes notes
    | commitCurrent => exact .of_ids (Nat.le_refl _) rfl rfl
    | undo => exact s.session.advances_undo
    | redo => exact s.session.advances_redo
    | deleteNote id => exact s.session.advances_deleteNote id
    | deleteSelected => exact s.session.advances_deleteSelected
    | copySelected => exact s.session.advances_copySelected
    | pasteAt beat => exact s.session.advances_pasteAt beat
    | applyPiece piece => exact s.session.advances_applyPiece piece
    | importText text => exact s.session.advances_applyResult _
    | generate service prompt =>
        obtain ⟨hnext, hnotes, hclip⟩ :=
          Session.advances_applyResult { s.session with remote := .idle } (service.generate prompt)
        exact ⟨hnext, hnotes, hclip⟩
    | gridDown p button => exact s.gestures.advances_pointerDown s.session p button
    | gridUp => exact s.gestures.advances_pointerUp s.session
    | laneDown beat y => exact s.velocities.advances_pointerDown s.session beat y
    | laneMove y => exact s.velocities.advances_apply s.session y
    | laneUp => exact s.velocities.advances_pointerUp s.session
    | laneCancel => exact s.velocities.advances_cancel s.session
    | select ids => exact .of_ids (Nat.le_refl _) rfl rfl
    | _ => exact absurd rfl he

omit [NumberText α] [SoundOutput σ α] in
theorem Fresh.ahead {s : Studio σ α} {d : Document α} (h : s.Fresh d)
    (hd : ∀ n ∈ d.notes, n.id < d.nextId) : s.session.Ahead := by
  rw [h.session]
  rintro id ⟨notes, hholds, hid⟩
  obtain ⟨n, hn, rfl⟩ := List.mem_map.1 hid
  rcases hholds with rfl | rfl | hlog
  · exact hd n hn
  · cases hn
  · obtain rfl : notes = d.notes := List.mem_singleton.1 hlog
    exact hd n hn

/-- Whatever is done, and whatever is committed, the next identity stays ahead. -/
theorem Fresh.ahead_run {s : Studio σ α} {d : Document α} (h : s.Fresh d)
    (hd : ∀ n ∈ d.notes, n.id < d.nextId) (events : List (Event α)) :
    (s.run events).session.Ahead := by
  have hlives : s.session.selection.Lives s.session.document := by
    rw [h.session]
    exact Selection.lives_empty _
  refine (run_keeps (P := fun s : Studio σ α =>
    s.session.selection.Lives s.session.document ∧ s.session.Ahead)
    (fun s e hs => ?_) ⟨hlives, h.ahead hd⟩ events).2
  have hstep := s.step_moves hs.1 e
  exact ⟨hstep.lives, hs.2.moves hstep.moves (s.advances_next e)⟩

end Studio

/-! ## Copies -/

theorem Scalar.smaller_eq_min (x y : Rat) : Scalar.smaller x y = min x y := by
  rw [Scalar.smaller]
  split
  · next h => exact (min_eq_left h.le).symm
  · next h => rw [if_pos (beq_self_eq_true y), min_eq_right (not_lt.1 h)]

/-- A selection of identities that are counted up lists them as they are. -/
theorem Selection.ids_ofList_range' (k count : Nat) :
    (Selection.ofList (List.range' k count)).ids = List.range' k count := by
  induction count generalizing k with
  | zero => rfl
  | succ count ih =>
      show insertId k (Selection.ofList (List.range' (k + 1) count)).ids = _
      rw [ih]
      cases count with
      | zero => rfl
      | succ count => exact if_pos (Nat.lt_succ_self k)

/-- The copy of a note that begins some beats later, with an identity of its own. -/
def Note.Shifted (shift : Rat) (n copy : Note Rat) : Prop :=
  copy = { n with id := copy.id, start := n.start + shift }

theorem Note.Shifted.start {shift : Rat} {n copy : Note Rat} (h : n.Shifted shift copy) :
    copy.start = n.start + shift := congrArg Note.start h

theorem Note.Shifted.between {a b : Rat} {n m k : Note Rat} (hm : n.Shifted a m)
    (hk : n.Shifted b k) : m.Shifted (b - a) k := by
  rw [Note.Shifted] at *
  rw [hm, hk]
  simp only [Note.mk.injEq, true_and, and_true]
  linarith

theorem Note.map_start_of_forall₂ {shift : Rat} {notes copies : List (Note Rat)}
    (h : List.Forall₂ (Shifted shift) notes copies) :
    copies.map (·.start) = notes.map fun n => n.start + shift := by
  induction h with
  | nil => rfl
  | cons hcopy _ ih => rw [List.map_cons, List.map_cons, ih, hcopy.start]

theorem Note.forall₂_shifted_between {a b : Rat} {notes ms ks : List (Note Rat)}
    (hms : List.Forall₂ (Shifted a) notes ms) (hks : List.Forall₂ (Shifted b) notes ks) :
    List.Forall₂ (Shifted (b - a)) ms ks := by
  induction hms generalizing ks with
  | nil =>
      cases hks
      exact .nil
  | cons hm _ ih =>
      cases hks with
      | cons hk hks => exact .cons (hm.between hk) (ih hks)

namespace Session

variable {s : Session Rat}

/-- The earliest onset is that of some note, and no note begins before it. -/
theorem earliest_mem_le (first : Note Rat) (others : List (Note Rat)) :
    (∃ n ∈ first :: others, n.start = earliest first others) ∧
      ∀ n ∈ first :: others, earliest first others ≤ n.start := by
  have hmin : ((first :: others).map (·.start)).min? = some (earliest first others) := by
    simp only [List.map_cons, List.min?_cons', List.foldl_map, earliest, Scalar.smaller_eq_min]
  obtain ⟨hmem, hleast⟩ := List.min?_eq_some_iff.1 hmin
  exact ⟨List.mem_map.1 hmem, List.forall_mem_map.1 hleast⟩

/-- A note in range that is not moved to before the beginning is copied field by
field. -/
theorem shifted_pasteNote {n : Note Rat} (h : n.InRange) {beat origin : Rat}
    (hbeat : 0 ≤ beat) (horigin : origin ≤ n.start) (id : NoteId) :
    n.Shifted (beat - origin) (pasteNote id beat origin n) := by
  have hstart : Scalar.larger (beat + (n.start - origin)) 0 = n.start + (beat - origin) := by
    rw [Scalar.larger_eq_max, max_eq_left] <;> linarith
  have hduration : (Scalar.isFinite n.duration && decide (0 < n.duration)) = true :=
    decide_eq_true h.duration
  have hpitch : Note.intoRange 0 Pitch.highest n.pitch = n.pitch :=
    Note.intoRange_of_mem (Nat.zero_le _) h.pitch
  have hvelocity : Note.intoRange 1 Note.maxVelocity n.velocity = n.velocity :=
    Note.intoRange_of_mem h.heard h.loudest
  rw [Note.Shifted, pasteNote, Note.ofFields, hpitch, hvelocity, if_pos hduration]
  exact congrArg (fun start => ({ n with id, start } : Note Rat)) hstart

/-- The copies that a paste makes of the clipboard. -/
def copies (s : Session Rat) (beat origin : Rat) : List (Note Rat) :=
  s.clipboard.mapIdx fun i n => pasteNote (s.document.nextId + i) beat origin n

theorem pasteAt_of_cons {first : Note Rat} {others : List (Note Rat)}
    (hclip : s.clipboard = first :: others) (beat : Rat) :
    let pasted := s.copies beat (earliest first others)
    ∃ nextId, s.pasteAt beat = (pasted.length,
      { Session.commitNotes { s with document := { s.document with nextId } }
          (s.document.notes ++ pasted) with
        selection := .ofList (pasted.map (·.id)) }) := by
  rw [pasteAt.eq_def]
  split
  · next hnil => exact absurd (hclip.symm.trans hnil) (List.cons_ne_nil _ _)
  · next first' others' hclip' =>
      obtain ⟨rfl, rfl⟩ := List.cons.inj (hclip.symm.trans hclip')
      exact ⟨_, rfl⟩

theorem ids_copies (s : Session Rat) (beat origin : Rat) :
    (s.copies beat origin).map (·.id) =
      List.range' s.document.nextId s.clipboard.length := ids_mapIdx (fun _ _ => rfl) _

theorem forall₂_copies (hrange : ∀ n ∈ s.clipboard, n.InRange) {beat origin : Rat}
    (hbeat : 0 ≤ beat) (horigin : ∀ n ∈ s.clipboard, origin ≤ n.start) :
    List.Forall₂ (Note.Shifted (beat - origin)) s.clipboard (s.copies beat origin) := by
  refine List.forall₂_iff_get.2 ⟨List.length_mapIdx.symm, fun i hi _ => ?_⟩
  simp only [List.get_eq_getElem, copies, List.getElem_mapIdx]
  have hn : s.clipboard[i] ∈ s.clipboard := List.getElem_mem hi
  exact shifted_pasteNote (hrange _ hn) hbeat (horigin _ hn) _

/-- What a paste comes to: the notes that it adds, and all else that it does. -/
structure Pasted (s : Session Rat) (beat : Rat) (r : Nat × Session Rat)
    (pasted : List (Note Rat)) : Prop where
  notes : r.2.document.notes = s.document.notes ++ pasted
  /-- One copy for each note of the clipboard, in its order. -/
  copies : ∃ shift, List.Forall₂ (Note.Shifted shift) s.clipboard pasted
  earliest : (∃ n ∈ pasted, n.start = beat) ∧ ∀ n ∈ pasted, beat ≤ n.start
  distinct : (pasted.map (·.id)).Nodup
  unused : ∀ n ∈ pasted, ¬ s.Uses n.id
  selection : r.2.selection.ids = pasted.map (·.id)
  count : r.1 = pasted.length
  history : r.2.history = s.history.commit r.2.document.notes
  clipboard : r.2.clipboard = s.clipboard

/-- Every note of the clipboard is moved by the distance from its earliest onset to
the wanted beat. -/
theorem Ahead.pasted (hs : s.Ahead) {first : Note Rat} {others : List (Note Rat)}
    (hclip : s.clipboard = first :: others) (hrange : ∀ n ∈ s.clipboard, n.InRange) {beat : Rat}
    (hbeat : 0 ≤ beat) :
    ∃ pasted, s.Pasted beat (s.pasteAt beat) pasted ∧
      List.Forall₂ (Note.Shifted (beat - Session.earliest first others)) s.clipboard pasted := by
  obtain ⟨⟨n, hn, hattained⟩, hleast⟩ := earliest_mem_le first others
  rw [← hclip] at hn hleast
  have hcopies := forall₂_copies hrange hbeat hleast
  have hstarts := Note.map_start_of_forall₂ hcopies
  have hids := s.ids_copies beat (Session.earliest first others)
  obtain ⟨nextId, hresult⟩ := pasteAt_of_cons hclip beat
  refine ⟨_, ?_, hcopies⟩
  rw [hresult]
  refine ⟨rfl, ⟨_, hcopies⟩, ⟨?_, fun m hm => ?_⟩, ?_, fun m hm huses => ?_, ?_, rfl, rfl, rfl⟩
  · refine List.mem_map.1 (hstarts ▸ List.mem_map.2 ⟨n, hn, ?_⟩)
    rw [hattained]
    exact add_sub_cancel _ _
  · have hm := hstarts ▸ List.mem_map_of_mem (f := Note.start) hm
    obtain ⟨k, hk, hstart⟩ := List.mem_map.1 hm
    linarith [hleast k hk]
  · rw [hids]
    exact List.nodup_range'
  · have hid : m.id ∈ List.range' s.document.nextId s.clipboard.length :=
      hids ▸ List.mem_map_of_mem hm
    exact Nat.not_lt.2 (List.mem_range'_1.1 hid).1 (hs m.id huses)
  · rw [hids]
    exact Selection.ids_ofList_range' _ _

/-- A paste leaves the next identity ahead. -/
theorem Ahead.pasteAt (hs : s.Ahead) (beat : Rat) : (s.pasteAt beat).2.Ahead := by
  rcases s.pasteAt_step beat with h | ⟨-, hstep⟩
  · rw [h]
    exact hs
  · exact hs.moves hstep.moves (s.advances_pasteAt beat)

end Session

namespace Studio

/-- Whatever was done to a piece whose notes are in range, on a grid of playable
pitches: a paste puts a copy of the clipboard behind the notes there are. All
onsets are moved by one distance, after which the earliest lies on the beat that
was asked for; identities apart nothing else of a note is changed, and the
identities are distinct and in no note, snapshot or clipboard before. The copies
are selected and counted, and the history gets one snapshot. The clipboard stays,
so a paste at another beat makes the same copies, moved by the distance between
the beats. -/
theorem paste_appends_shifted_copy {σ : Type} [NumberText Rat] [SoundOutput σ Rat]
    {d : Document Rat} {fresh : Studio σ Rat} (hfresh : fresh.Fresh d)
    (hnotes : ∀ n ∈ d.notes, n.InRange ∧ n.id < d.nextId)
    (hgrid : fresh.gestures.grid.ShowsPlayable) {events : List (Event Rat)}
    (hbrought : fresh.Along (Brings Note.InRange) events) {beat : Rat} (hbeat : 0 ≤ beat) :
    let s := (fresh.run events).session
    s.clipboard ≠ [] → ∃ pasted, s.Pasted beat (s.pasteAt beat) pasted ∧
      ∀ later : Rat, 0 ≤ later → ∃ again,
        (s.pasteAt beat).2.Pasted later ((s.pasteAt beat).2.pasteAt later) again ∧
        List.Forall₂ (Note.Shifted (later - beat)) pasted again := by
  intro s hclip
  have hahead : s.Ahead := hfresh.ahead_run (fun n hn => (hnotes n hn).2) events
  have hevery : (fresh.run events).Every Note.InRange Grid.ShowsPlayable :=
    hbrought.run_keeps (fun _ _ he hs => hs.next Note.kept_inRange he)
      (hfresh.every (fun n hn => (hnotes n hn).1) hgrid)
  have hrange : ∀ n ∈ s.clipboard, n.InRange := hevery.session _ (.inr (.inl rfl))
  obtain ⟨first, others, hcons⟩ := List.exists_cons_of_ne_nil hclip
  obtain ⟨pasted, hpasted, hcopies⟩ := hahead.pasted hcons hrange hbeat
  refine ⟨pasted, hpasted, fun later hlater => ?_⟩
  have hsame : (s.pasteAt beat).2.clipboard = s.clipboard := hpasted.clipboard
  obtain ⟨again, hagain, hmore⟩ :=
    (hahead.pasteAt beat).pasted (hsame.trans hcons) (hsame ▸ hrange) hlater
  refine ⟨again, hagain, ?_⟩
  have hbetween := Note.forall₂_shifted_between hcopies (hsame ▸ hmore)
  rwa [sub_sub_sub_cancel_right] at hbetween

/-- Two notes come in, the later one first, and are copied. One is deleted and the
deletion taken back; by then a note has been drawn. -/
def copyTwo : List (Event Rat) :=
  [.commitNotes [.ofFields 7 60 3 1 90 "t_piano", .ofFields 2 64 (3 / 2) (1 / 2) 100 "t_bass"],
    .select [2, 7], .copySelected, .deleteNote 2, .undo, .gridDown ⟨300, 240⟩ .primary, .gridUp]

/-- The copies have the next identities, and the earlier of the two is on the beat. -/
theorem copyTwo_pasted :
    unhandled.Fresh (.empty Track.defaults 120) ∧
    unhandled.Along (Brings Note.InRange) copyTwo ∧
    ∃ pasted again,
      (unhandled.run copyTwo).session.Pasted 4 ((unhandled.run copyTwo).session.pasteAt 4) pasted ∧
      (pasted.map fun n => (n.id, n.pitch, n.start, n.duration, n.velocity)) =
        [(9, 60, 11 / 2, 1, 90), (10, 64, 4, 1 / 2, 100)] ∧
      List.Forall₂ (Note.Shifted (-4)) pasted again := by
  have hfresh : unhandled.Fresh (.empty Track.defaults 120) := ⟨rfl, rfl, rfl⟩
  have hbrought : unhandled.Along (Brings Note.InRange) copyTwo := by
    refine ⟨fun n hn => ?_, trivial, trivial, trivial, trivial, trivial, trivial, trivial⟩
    rcases List.mem_cons.1 hn with rfl | hn
    · exact Note.inRange_ofFields ..
    · rw [List.mem_singleton.1 hn]
      exact Note.inRange_ofFields ..
  obtain ⟨pasted, hpasted, hagain⟩ := paste_appends_shifted_copy hfresh
    (fun n hn => absurd hn List.not_mem_nil) (Grid.showsPlayable_ofRange _ _ _ _) hbrought
    (show (0 : Rat) ≤ 4 by decide +kernel) (show _ ≠ [] by decide +kernel)
  obtain ⟨again, -, hmoved⟩ := hagain 0 (le_refl 0)
  have hnotes := congrArg (List.drop (unhandled.run copyTwo).session.document.notes.length)
    hpasted.notes
  rw [List.drop_left] at hnotes
  refine ⟨hfresh, hbrought, pasted, again, hpasted, ?_, by rwa [zero_sub] at hmoved⟩
  rw [← hnotes]
  decide +kernel

end Studio

end NoteRoll
