import NoteRoll.Decimal.Shortest
import NoteRoll.Proofs.HistoryMirror

/-!
# Identities are never used twice

A note's identity is given out in one place and travels through many: a drawn
note has its identity from the press and comes into the document at the release,
if at all; snapshots bring notes back; the clipboard keeps notes that are gone.
What holds all of them together is one number, the identity that the document
gives out next. It never goes back, and it lies beyond every identity that is
anywhere.

An event is summed up by `Renews`: of each list of notes that a session has
afterwards, where its identities come from. They were there before, or they were
given with the event, or they are new. Most lists are thinned out from lists that
were there, by `Session.Numbered.good_of_thins`; the only ones to prove anything
about are those that are committed.

The hard case is a note that is being drawn. Its identity lies below the next
one and is in no list, and it has to stay out of all of them until the release,
whatever is undone, pasted or imported in between. The only operation that could
bring it in is a commit of notes from outside, which is why such notes have to
be distinct and may not claim it. That nothing weaker would do is
`admits_commitNotes_iff`, a result in its own right: it says of each such commit
whether identities stay distinct, so what is asked of a commit gives nothing away.
-/

namespace NoteRoll

variable {α : Type}

/-! ## Lists of notes -/

/-- The notes are told apart by their identities, which lie below the next one. -/
structure Document.Numbered (d : Document α) : Prop where
  distinct : (d.notes.map (·.id)).Nodup
  below : ∀ id ∈ d.notes.map (·.id), id < d.nextId

theorem Document.numbered_of_nil {d : Document α} (h : d.notes = []) : d.Numbered :=
  ⟨by rw [h]; exact List.nodup_nil, by rw [h]; exact fun id hid => absurd hid List.not_mem_nil⟩

/-- Every note lies below the first identity after them. -/
theorem Document.lt_idAfter {notes : List (Note α)} {n : Note α} (h : n ∈ notes) :
    n.id < Document.idAfter notes := by
  have hfold : ∀ (l : List (Note α)) (m : Nat),
      m ≤ l.foldl (fun m n => max m (n.id + 1)) m ∧
        ∀ n ∈ l, n.id < l.foldl (fun m n => max m (n.id + 1)) m := by
    intro l
    induction l with
    | nil => exact fun m => ⟨Nat.le_refl m, fun n hn => absurd hn List.not_mem_nil⟩
    | cons k l ih =>
        intro m
        obtain ⟨hgrows, hmem⟩ := ih (max m (k.id + 1))
        refine ⟨Nat.le_trans (Nat.le_max_left _ _) hgrows, fun n hn => ?_⟩
        rcases List.mem_cons.1 hn with rfl | hn
        · exact Nat.lt_of_lt_of_le (Nat.le_max_right m (n.id + 1)) hgrows
        · exact hmem n hn
  exact (hfold notes 0).2 n h

/-- Notes that are made one by one get identities one by one. -/
theorem ids_mapIdx {β : Type} {f : Nat → β → Note α} {k : Nat}
    (h : ∀ i b, (f i b).id = k + i) (l : List β) :
    (l.mapIdx f).map (·.id) = List.range' k l.length := by
  refine List.ext_getElem (by simp) fun i _ _ => ?_
  simp [h]

/-- The lists of notes that a session has. -/
def Session.Holds (s : Session α) (notes : List (Note α)) : Prop :=
  notes = s.document.notes ∨ notes = s.clipboard ∨ notes ∈ s.history.log

/-- An identity is that of a note in one of these lists. -/
def Session.Uses (s : Session α) (id : NoteId) : Prop :=
  ∃ notes, s.Holds notes ∧ id ∈ notes.map (·.id)

theorem Session.Holds.present {s : Session α} : s.Holds s.history.present :=
  .inr (.inr s.history.present_mem_log)

/-- No list has an identity twice, and the next identity is beyond all of them. -/
structure Session.Numbered (s : Session α) : Prop where
  distinct : ∀ notes, s.Holds notes → (notes.map (·.id)).Nodup
  below : ∀ id, s.Uses id → id < s.document.nextId

/-- Notes whose identities are distinct and below a bound, and are such as a
session has, or are given, or are new to the session. -/
structure Session.Good (s : Session α) (given : List NoteId) (bound : NoteId)
    (notes : List (Note α)) : Prop where
  distinct : (notes.map (·.id)).Nodup
  below : ∀ id ∈ notes.map (·.id), id < bound
  source : ∀ id ∈ notes.map (·.id), s.Uses id ∨ id ∈ given ∨ s.document.nextId ≤ id

/-- What a session has after an event, by where the identities come from. -/
structure Session.Renews (s : Session α) (given : List NoteId) (s' : Session α) : Prop where
  nextId_le : s.document.nextId ≤ s'.document.nextId
  good : ∀ notes, s'.Holds notes → s.Good given s'.document.nextId notes

namespace Session

variable {s s' : Session α} {given : List NoteId} {bound : NoteId}

/-- Notes thinned out from a list that is there. -/
theorem Numbered.good_of_thins (hs : s.Numbered) {old notes : List (Note α)}
    (hold : s.Holds old) (hthin : (notes.map (·.id)).Sublist (old.map (·.id)))
    (hbound : s.document.nextId ≤ bound) : s.Good given bound notes := by
  have huses : ∀ id ∈ notes.map (·.id), s.Uses id :=
    fun id hid => ⟨old, hold, hthin.subset hid⟩
  refine ⟨(hs.distinct old hold).sublist hthin, fun id hid => ?_, fun id hid => .inl (huses id hid)⟩
  exact Nat.lt_of_lt_of_le (hs.below id (huses id hid)) hbound

theorem Numbered.good_of_holds (hs : s.Numbered) {notes : List (Note α)}
    (hholds : s.Holds notes) (hbound : s.document.nextId ≤ bound) : s.Good given bound notes :=
  hs.good_of_thins hholds (List.Sublist.refl _) hbound

theorem Renews.numbered (h : s.Renews given s') : s'.Numbered where
  distinct notes hnotes := (h.good notes hnotes).distinct
  below := fun id ⟨notes, hnotes, hid⟩ => (h.good notes hnotes).below id hid

theorem Renews.source (h : s.Renews given s') {id : NoteId} (hid : s'.Uses id) :
    s.Uses id ∨ id ∈ given ∨ s.document.nextId ≤ id := by
  obtain ⟨notes, hnotes, hmem⟩ := hid
  exact (h.good notes hnotes).source id hmem

theorem Renews.refl (hs : s.Numbered) : s.Renews given s :=
  ⟨Nat.le_refl _, fun _ h => hs.good_of_holds h (Nat.le_refl _)⟩

/-- A move of the history brings nothing new but the notes that are committed. -/
theorem Moves.renews {m : Mark} (hm : s.Moves m s') (hs : s.Numbered)
    (hnext : s.document.nextId ≤ s'.document.nextId) (hclip : s'.clipboard = s.clipboard)
    (hnotes : m = .commit → s.Good given s'.document.nextId s'.document.notes) :
    s.Renews given s' := by
  refine ⟨hnext, ?_⟩
  rintro notes (rfl | rfl | hlog)
  · cases hm with
    | still history notes => exact hs.good_of_holds (.inl notes) hnext
    | previewed id velocity history notes =>
        have hids : s'.document.notes.map (·.id) = s.document.notes.map (·.id) := by
          rw [notes, Document.setVelocity_ids]
        exact hs.good_of_thins (.inl rfl) (hids ▸ List.Sublist.refl _) hnext
    | committed history => exact hnotes rfl
    | undone history notes =>
        rw [notes]
        have hmem := History.log_undo? history ▸ s'.history.present_mem_log
        exact hs.good_of_holds (.inr (.inr hmem)) hnext
    | redone history notes =>
        rw [notes]
        have hmem := History.log_redo? history ▸ s'.history.present_mem_log
        exact hs.good_of_holds (.inr (.inr hmem)) hnext
  · exact hs.good_of_holds (.inr (.inl hclip)) hnext
  · have hold : ∀ {notes}, notes ∈ s.history.log → s.Good given s'.document.nextId notes :=
      fun h => hs.good_of_holds (.inr (.inr h)) hnext
    cases hm with
    | still history notes => exact hold (history ▸ hlog)
    | previewed id velocity history notes => exact hold (history ▸ hlog)
    | committed history =>
        rw [history] at hlog
        rcases History.mem_log_commit hlog with rfl | hlog
        · exact hnotes rfl
        · exact hold hlog
    | undone history notes => exact hold (History.log_undo? history ▸ hlog)
    | redone history notes => exact hold (History.log_redo? history ▸ hlog)

/-! ## The operations -/

/-- Committed notes lie below the next identity, because it was moved beyond
them. -/
theorem good_of_idAfter_le {notes : List (Note α)} (hdistinct : (notes.map (·.id)).Nodup)
    (hbound : Document.idAfter notes ≤ bound)
    (hsource : ∀ id ∈ notes.map (·.id), s.Uses id ∨ id ∈ given ∨ s.document.nextId ≤ id) :
    s.Good given bound notes := by
  refine ⟨hdistinct, fun id hid => ?_, hsource⟩
  obtain ⟨n, hn, rfl⟩ := List.mem_map.1 hid
  exact Nat.lt_of_lt_of_le (Document.lt_idAfter hn) hbound

theorem Numbered.commitNotes (hs : s.Numbered) {notes : List (Note α)}
    (hdistinct : (notes.map (·.id)).Nodup)
    (hsource : ∀ id ∈ notes.map (·.id), s.Uses id ∨ id ∈ given ∨ s.document.nextId ≤ id) :
    s.Renews given (s.commitNotes notes) :=
  (s.commitNotes_step notes).moves.renews hs (Nat.le_max_left _ _) rfl fun _ =>
    good_of_idAfter_le hdistinct (Nat.le_max_right _ _) hsource

/-- A commit of notes thinned out from the document's. -/
theorem Numbered.commitThinned (hs : s.Numbered) {notes : List (Note α)}
    (hthin : (notes.map (·.id)).Sublist (s.document.notes.map (·.id))) :
    s.Renews given (s.commitNotes notes) := by
  have hgood : s.Good given s.document.nextId notes :=
    hs.good_of_thins (.inl rfl) hthin (Nat.le_refl _)
  exact hs.commitNotes hgood.distinct hgood.source

theorem Keeps.renews (h : s.Keeps s') (hs : s.Numbered) : s.Renews given s' :=
  Moves.renews (.still h.history h.notes) hs (Nat.le_of_eq h.nextId.symm) h.clipboard
    fun hm => Mark.noConfusion hm

/-- What is selected is no matter of who holds which identity. -/
theorem Renews.select (h : s.Renews given s') (selection : Selection) :
    s.Renews given { s' with selection } := ⟨h.nextId_le, h.good⟩

theorem Numbered.commitCurrent (hs : s.Numbered) : s.Renews given s.commitCurrent :=
  s.commitCurrent_step.moves.renews hs (Nat.le_refl _) rfl fun _ =>
    hs.good_of_holds (.inl rfl) (Nat.le_refl _)

theorem Numbered.undo (hs : s.Numbered) : s.Renews given s.undo.2 := by
  rw [Session.undo]
  split
  · exact .refl hs
  · next history h =>
      refine Moves.renews (m := .undo) (.undone h rfl) hs (Nat.le_max_left _ _) rfl ?_
      exact fun hm => Mark.noConfusion hm

theorem Numbered.redo (hs : s.Numbered) : s.Renews given s.redo.2 := by
  rw [Session.redo]
  split
  · exact .refl hs
  · next history h =>
      refine Moves.renews (m := .redo) (.redone h rfl) hs (Nat.le_max_left _ _) rfl ?_
      exact fun hm => Mark.noConfusion hm

theorem Numbered.deleteNote (hs : s.Numbered) (id : NoteId) :
    s.Renews given (s.deleteNote id).2 := by
  rw [Session.deleteNote]
  split
  · exact hs.commitThinned (List.Sublist.map _ List.filter_sublist)
  · exact .refl hs

theorem Numbered.deleteSelected (hs : s.Numbered) : s.Renews given s.deleteSelected.2 := by
  rw [Session.deleteSelected]
  split
  · exact .refl hs
  · exact (hs.commitThinned (List.Sublist.map _ List.filter_sublist)).select _

theorem Numbered.copySelected (hs : s.Numbered) : s.Renews given s.copySelected.2 := by
  refine ⟨Nat.le_refl _, ?_⟩
  rintro notes (rfl | rfl | hlog)
  · exact hs.good_of_holds (.inl rfl) (Nat.le_refl _)
  · exact hs.good_of_thins (.inl rfl) (List.Sublist.map _ List.filter_sublist) (Nat.le_refl _)
  · exact hs.good_of_holds (.inr (.inr hlog)) (Nat.le_refl _)

/-- A commit of notes some of which were there, and the rest of which are counted
up from the next identity. -/
theorem Numbered.commitNew (hs : s.Numbered) {old new : List (Note α)} {count : Nat}
    (hold : old = [] ∨ old = s.document.notes)
    (hnew : new.map (·.id) = List.range' s.document.nextId count)
    (hmoves : s.Moves .commit s') (hnotes : s'.document.notes = old ++ new)
    (hnext : s.document.nextId ≤ s'.document.nextId)
    (hbeyond : Document.idAfter (old ++ new) ≤ s'.document.nextId)
    (hclip : s'.clipboard = s.clipboard) : s.Renews given s' := by
  have hkept : s.Good given s.document.nextId old := by
    rcases hold with rfl | rfl
    · exact hs.good_of_thins (.inl rfl) (List.nil_sublist _) (Nat.le_refl _)
    · exact hs.good_of_holds (.inl rfl) (Nat.le_refl _)
  have hadded : ∀ id ∈ new.map (·.id), s.document.nextId ≤ id := by
    intro id hid
    rw [hnew] at hid
    exact (List.mem_range'_1.1 hid).1
  refine hmoves.renews hs hnext hclip fun _ => ?_
  rw [hnotes]
  refine good_of_idAfter_le ?_ hbeyond fun id hid => ?_
  · rw [List.map_append, List.nodup_append]
    refine ⟨hkept.distinct, hnew ▸ List.nodup_range', fun a ha b hb hab => ?_⟩
    exact absurd (hab ▸ hkept.below a ha) (Nat.not_lt.2 (hadded b hb))
  · rw [List.map_append] at hid
    rcases List.mem_append.1 hid with hid | hid
    · exact hkept.source id hid
    · exact .inr (.inr (hadded id hid))

variable [Scalar α]

theorem Numbered.pasteAt (hs : s.Numbered) (beat : α) : s.Renews given (s.pasteAt beat).2 := by
  rcases s.pasteAt_step beat with hnothing | ⟨-, hstep⟩
  · rw [hnothing]
    exact .refl hs
  · rw [Session.pasteAt.eq_def] at hstep ⊢
    split at hstep
    · exact .refl hs
    · next first others hclip =>
        refine hs.commitNew (.inr rfl) (ids_mapIdx (fun _ _ => rfl) _) hstep.moves rfl ?_
          (Nat.le_max_right _ _) rfl
        exact Nat.le_trans (Nat.le_add_right _ _) (Nat.le_max_left _ _)

/-- The notes of a piece that is taken over, and the identities beyond them. -/
theorem applyPiece_notes (s : Session α) (p : Piece α) :
    (s.applyPiece p).2.document.notes = p.flatten s.document.nextId ∧
    (s.applyPiece p).2.document.nextId =
      max (s.document.nextId + (p.flatten s.document.nextId).length)
        (Document.idAfter (p.flatten s.document.nextId)) ∧
    (s.applyPiece p).2.clipboard = s.clipboard := by
  rw [applyPiece, takeTracks, Document.setBpm]
  split <;> split <;> exact ⟨rfl, rfl, rfl⟩

theorem Numbered.applyPiece (hs : s.Numbered) (p : Piece α) :
    s.Renews given (s.applyPiece p).2 := by
  obtain ⟨hnotes, hnext, hclip⟩ := s.applyPiece_notes p
  have hids : (p.flatten s.document.nextId).map (·.id) =
      List.range' s.document.nextId p.laidOut.length := ids_mapIdx (fun _ _ => rfl) _
  refine hs.commitNew (.inl rfl) hids (s.applyPiece_step p).moves hnotes ?_ ?_ hclip
  · rw [hnext]
    exact Nat.le_trans (Nat.le_add_right _ _) (Nat.le_max_left _ _)
  · rw [hnext]
    exact Nat.le_max_right _ _

theorem Numbered.applyResult {ε : Type} (hs : s.Numbered) (r : Except ε (Piece α)) :
    s.Renews given (s.applyResult r).2 := by
  cases r with
  | error e => exact .refl hs
  | ok p => exact hs.applyPiece p

end Session

/-! ## The editors -/

section Editors

variable {s : Session α} {given : List NoteId}

theorem ids_replaceByGhosts (notes ghosts : List (Note α)) :
    (GestureEditor.replaceByGhosts notes ghosts).map (·.id) = notes.map (·.id) := by
  rw [GestureEditor.replaceByGhosts, List.map_map]
  refine List.map_congr_left fun n _ => ?_
  show ((ghosts.find? fun g => g.id == n.id).getD n).id = n.id
  cases h : ghosts.find? fun g => g.id == n.id with
  | none => rfl
  | some g =>
      have hid := List.find?_some h
      exact eq_of_beq hid

/-- The identities that a gesture knows of. -/
def Gesture.ids : Gesture α → List NoteId
  | .idle | .marquee _ _ => []
  | .drawing _ note => [note.id]
  | .moving grabbed captured _ _ _ _ => grabbed :: captured.map (·.id)
  | .resizing id _ _ _ => [id]

/-- The identity of the note that is being drawn. -/
def Gesture.drawn : Gesture α → List NoteId
  | .drawing _ note => [note.id]
  | .idle | .marquee .. | .moving .. | .resizing .. => []

theorem Gesture.drawn_subset_ids (g : Gesture α) : ∀ id ∈ g.drawn, id ∈ g.ids := by
  cases g with
  | drawing anchorBeat note => exact fun id hid => hid
  | _ => exact fun id hid => absurd hid List.not_mem_nil

theorem Session.Numbered.preview (hs : s.Numbered) (id : NoteId) (velocity : Nat) :
    s.Renews given (s.preview id velocity) :=
  Session.Moves.renews (.previewed id velocity rfl rfl) hs (Nat.le_refl _) rfl
    fun hm => Mark.noConfusion hm

variable [Scalar α]

theorem Gesture.moveTo?_ids {g g' : Gesture α} {grid : Grid α} {p : Point α}
    (h : g.moveTo? grid s p = some g') : g'.ids = g.ids ∧ g'.drawn = g.drawn := by
  rcases moveTo?_forms h with ⟨_, _, _, rfl, rfl⟩ | ⟨_, _, _, _, _, _, _, _, rfl, rfl⟩ |
    ⟨_, _, _, _, _, rfl, rfl⟩ | ⟨_, _, rfl, rfl⟩ <;> exact ⟨rfl, rfl⟩

/-- The identities of a gesture lie below the next one, and a note that is being
drawn is in no list. -/
structure GestureEditor.Apart (e : GestureEditor α) (s : Session α) : Prop where
  below : ∀ id ∈ e.gesture.ids, id < s.document.nextId
  unused : ∀ id ∈ e.gesture.drawn, ¬ s.Uses id

namespace GestureEditor

variable {e : GestureEditor α} {s' : Session α}

omit [Scalar α] in
/-- What comes from elsewhere never is the note that is being drawn. -/
theorem Apart.renews (h : e.Apart s) (hr : s.Renews given s')
    (hgiven : ∀ id ∈ e.gesture.drawn, id ∉ given) : e.Apart s' := by
  refine ⟨fun id hid => Nat.lt_of_lt_of_le (h.below id hid) hr.nextId_le, fun id hid huses => ?_⟩
  rcases hr.source huses with huses | hmem | hnew
  · exact h.unused id hid huses
  · exact hgiven id hid hmem
  · exact Nat.not_lt.2 hnew (h.below id (e.gesture.drawn_subset_ids id hid))

omit [Scalar α] in
theorem Apart.of_ids_nil (h : e.gesture.ids = []) : e.Apart s := by
  refine ⟨fun id hid => ?_, fun id hid => ?_⟩
  · rw [h] at hid
    cases hid
  · have hmem := e.gesture.drawn_subset_ids id hid
    rw [h] at hmem
    cases hmem

theorem Apart.pointerMove (h : e.Apart s) (p : Point α) : (e.pointerMove s p).2.Apart s := by
  rw [GestureEditor.pointerMove]
  split
  · exact h
  · next g hg =>
      obtain ⟨hids, hdrawn⟩ := Gesture.moveTo?_ids hg
      exact ⟨fun id hid => h.below id (hids ▸ hid), fun id hid => h.unused id (hdrawn ▸ hid)⟩

/-- A press thins out the notes at most. A gesture that it begins knows notes of
the document, or one that is new and stays apart. -/
theorem pointerDown_renews (hs : s.Numbered) (h : e.Apart s) (p : Point α)
    (button : PointerButton) :
    s.Renews given (e.pointerDown s p button).session ∧
      (e.pointerDown s p button).editor.Apart (e.pointerDown s p button).session := by
  have hdocument : ∀ {n}, n ∈ s.document.notes → n.id < s.document.nextId :=
    fun hn => hs.below _ ⟨_, .inl rfl, List.mem_map_of_mem hn⟩
  rcases e.pointerDown_forms s p button with
    hignored | ⟨n, -, hdeleted⟩ | ⟨-, hdraw | ⟨n, hn, hresize⟩ | ⟨n, hn, hmove⟩ | hmarquee⟩
  · rw [hignored]
    exact ⟨.refl hs, h⟩
  · rw [hdeleted]
    exact ⟨hs.deleteNote n.id, h.renews (hs.deleteNote n.id) fun _ _ => List.not_mem_nil⟩
  · rw [hdraw]
    refine ⟨⟨Nat.le_succ _, fun notes hnotes => ?_⟩, fun id hid => ?_, fun id hid huses => ?_⟩
    · exact hs.good_of_holds hnotes (Nat.le_succ _)
    · rw [List.mem_singleton.1 hid]
      exact Nat.lt_succ_self _
    · obtain rfl : id = s.document.nextId := List.mem_singleton.1 hid
      exact Nat.lt_irrefl _ (hs.below _ huses)
  · rw [hresize]
    refine ⟨.refl hs, fun id hid => ?_, fun id hid => absurd hid List.not_mem_nil⟩
    rw [List.mem_singleton.1 hid]
    exact hdocument hn
  · rw [hmove]
    refine ⟨(Session.Renews.refl hs).select _, fun id hid => ?_,
      fun id hid => absurd hid List.not_mem_nil⟩
    rcases List.mem_cons.1 hid with rfl | hid
    · exact hdocument hn
    · obtain ⟨m, hm, rfl⟩ := List.mem_map.1 hid
      exact hdocument (List.mem_filter.1 hm).1
  · rw [hmarquee]
    exact ⟨.refl hs, Apart.of_ids_nil rfl⟩

/-- A release commits the notes as they are numbered, with the drawn one behind
them if there is one. -/
theorem pointerUp_renews (hs : s.Numbered) (h : e.Apart s) :
    s.Renews e.gesture.drawn (e.pointerUp s).2.2 := by
  obtain ⟨gesture, grid, edgeMargin⟩ := e
  cases gesture with
  | idle => exact .refl hs
  | drawing anchorBeat note =>
      have hunused : ¬ s.Uses note.id := h.unused note.id (List.mem_singleton.2 rfl)
      have huses : ∀ id ∈ s.document.notes.map (·.id), s.Uses id :=
        fun id hid => ⟨_, .inl rfl, hid⟩
      refine Session.Renews.select (hs.commitNotes ?_ fun id hid => ?_) _
      · rw [List.map_append, List.nodup_append]
        refine ⟨hs.distinct _ (.inl rfl), List.nodup_cons.2 ⟨List.not_mem_nil, List.nodup_nil⟩,
          fun a ha b hb hab => ?_⟩
        obtain rfl : b = note.id := List.mem_singleton.1 hb
        exact hunused (hab ▸ huses a ha)
      · rw [List.map_append] at hid
        rcases List.mem_append.1 hid with hid | hid
        · exact .inl (huses id hid)
        · exact .inr (.inl hid)
  | moving grabbed captured beatOffset pitchOffset deltaBeat deltaPitch =>
      exact hs.commitThinned (by simp only [ids_replaceByGhosts, List.Sublist.refl])
  | resizing id originStart originDuration duration =>
      exact hs.commitThinned (by simp only [ids_replaceByGhosts, List.Sublist.refl])
  | marquee anchor cursor => exact (Session.Renews.refl hs).select _

end GestureEditor

namespace VelocityEditor

theorem apply_renews (hs : s.Numbered) (e : VelocityEditor α) (y : α) :
    s.Renews given (e.apply s y) := by
  rcases e.apply_cases s y with ⟨-, h⟩ | ⟨id, -, h⟩
  · rw [h]
    exact .refl hs
  · rw [h]
    exact hs.preview _ _

theorem pointerDown_renews (hs : s.Numbered) (e : VelocityEditor α) (beat y : α) :
    s.Renews given (e.pointerDown s beat y).2.2 := by
  rcases e.pointerDown_cases s beat y with ⟨-, h⟩ | ⟨n, -, h⟩
  · rw [h]
    exact .refl hs
  · rw [h]
    exact hs.preview _ _

omit [Scalar α] in
theorem pointerUp_renews (hs : s.Numbered) (e : VelocityEditor α) :
    s.Renews given (e.pointerUp s).2.2 := by
  rcases e.pointerUp_cases s with ⟨-, h⟩ | ⟨-, h⟩
  · rw [h]
    exact .refl hs
  · rw [h]
    exact hs.commitCurrent

omit [Scalar α] in
theorem cancel_renews (hs : s.Numbered) (e : VelocityEditor α) :
    s.Renews given (e.cancel s).2.2 := by
  rcases e.cancel_cases s with ⟨-, h⟩ | ⟨id, -, h⟩
  · rw [h]
    exact .refl hs
  · rw [h]
    cases committed? s id with
    | none => exact .refl hs
    | some velocity => exact hs.preview _ _

end VelocityEditor

end Editors

/-! ## Events and runs -/

namespace Studio

variable {σ : Type}

/-- Notes that are committed from outside are distinct, and none of them claims
to be the one that is being drawn. -/
def Admits (s : Studio σ α) : Event α → Prop
  | .commitNotes notes =>
    (notes.map (·.id)).Nodup ∧ ∀ id ∈ s.gestures.gesture.drawn, id ∉ notes.map (·.id)
  | _ => True

/-- The identities that an event brings along. -/
def given (s : Studio σ α) : Event α → List NoteId
  | .commitNotes notes => notes.map (·.id)
  | .gridUp => s.gestures.gesture.drawn
  | _ => []

/-- Nothing weaker would do: a commit from outside is admitted exactly if the
notes are distinct after it, and after the release that may come next. -/
theorem admits_commitNotes_iff [Scalar α] [NumberText α] [SoundOutput σ α] {s : Studio σ α}
    {notes : List (Note α)} :
    s.Admits (.commitNotes notes) ↔
      ((s.next (.commitNotes notes)).session.document.notes.map (·.id)).Nodup ∧
      ((s.run [.commitNotes notes, .gridUp]).session.document.notes.map (·.id)).Nodup := by
  obtain ⟨session, ⟨gesture, grid, edgeMargin⟩, velocities, transport, output⟩ := s
  refine and_congr_right fun hnodup => ?_
  have hnodup : (notes.map (·.id)).Nodup := hnodup
  cases gesture with
  | idle => exact ⟨fun _ => hnodup, fun _ id hid => absurd hid List.not_mem_nil⟩
  | drawing anchorBeat note =>
      show (∀ id ∈ [note.id], id ∉ notes.map (·.id)) ↔ ((notes ++ [note]).map (·.id)).Nodup
      rw [List.map_append, List.nodup_append]
      refine ⟨fun hfresh => ⟨hnodup, List.nodup_cons.2 ⟨List.not_mem_nil, List.nodup_nil⟩, ?_⟩,
        fun h id hid hmem => h.2.2 id hmem id hid rfl⟩
      exact fun a ha b hb hab => hfresh b hb (hab ▸ ha)
  | moving grabbed captured beatOffset pitchOffset deltaBeat deltaPitch =>
      refine ⟨fun _ => ?_, fun _ id hid => absurd hid List.not_mem_nil⟩
      show ((GestureEditor.replaceByGhosts notes _).map (·.id)).Nodup
      rw [ids_replaceByGhosts]
      exact hnodup
  | resizing id originStart originDuration duration =>
      refine ⟨fun _ => ?_, fun _ id hid => absurd hid List.not_mem_nil⟩
      show ((GestureEditor.replaceByGhosts notes _).map (·.id)).Nodup
      rw [ids_replaceByGhosts]
      exact hnodup
  | marquee anchor cursor => exact ⟨fun _ => hnodup, fun _ id hid => absurd hid List.not_mem_nil⟩

/-- The numbering of a session and of what the editors know of it. -/
structure Numbered (s : Studio σ α) : Prop where
  lives : s.session.selection.Lives s.session.document
  session : s.session.Numbered
  gesture : s.gestures.Apart s.session
  editing : ∀ id, s.velocities.editing = some id → id < s.session.document.nextId

variable [Scalar α] [NumberText α] [SoundOutput σ α] {s : Studio σ α}

/-- Where the identities after an event come from. -/
theorem Numbered.renews (hs : s.Numbered) {e : Event α} (he : s.Admits e) :
    s.session.Renews (s.given e) (s.next e).session := by
  have hsession := hs.session
  by_cases hspares : e.sparesNotes = true
  · exact (s.next_keeps hspares).renews hsession
  · cases e with
    | commitNotes notes => exact hsession.commitNotes he.1 fun id hid => .inr (.inl hid)
    | commitCurrent => exact hsession.commitCurrent
    | undo => exact hsession.undo
    | redo => exact hsession.redo
    | deleteNote id => exact hsession.deleteNote id
    | deleteSelected => exact hsession.deleteSelected
    | select ids => exact (Session.Renews.refl hsession).select _
    | copySelected => exact hsession.copySelected
    | pasteAt beat => exact hsession.pasteAt beat
    | applyPiece piece => exact hsession.applyPiece piece
    | importText text => exact hsession.applyResult _
    | generate service prompt =>
        have hidle : Session.Numbered { s.session with remote := .idle } :=
          ⟨hsession.distinct, hsession.below⟩
        have hr : Session.Renews _ [] _ := hidle.applyResult (service.generate prompt)
        refine ⟨hr.nextId_le, fun notes hnotes => ?_⟩
        have hgood := hr.good notes hnotes
        exact ⟨hgood.distinct, hgood.below, hgood.source⟩
    | gridDown p button => exact (GestureEditor.pointerDown_renews hsession hs.gesture p button).1
    | gridUp => exact GestureEditor.pointerUp_renews hsession hs.gesture
    | laneDown beat y => exact VelocityEditor.pointerDown_renews hsession s.velocities beat y
    | laneMove y => exact VelocityEditor.apply_renews hsession s.velocities y
    | laneUp => exact VelocityEditor.pointerUp_renews hsession s.velocities
    | laneCancel => exact VelocityEditor.cancel_renews hsession s.velocities
    | _ => exact absurd rfl hspares

/-- What a gesture holds stays apart from the notes and below the next identity. -/
theorem Numbered.next_apart (hs : s.Numbered) {e : Event α} (he : s.Admits e) :
    (s.next e).gestures.Apart (s.next e).session := by
  have hr := hs.renews he
  have hnothing : s.given e = [] → (s.next e).gestures.gesture = s.gestures.gesture →
      (s.next e).gestures.Apart (s.next e).session := by
    intro hgiven hsame
    have hapart := hs.gesture.renews hr fun _ _ => hgiven ▸ List.not_mem_nil
    exact ⟨fun id hid => hapart.below id (hsame ▸ hid),
      fun id hid => hapart.unused id (hsame ▸ hid)⟩
  cases e with
  | commitNotes notes => exact hs.gesture.renews hr he.2
  | gridDown p button =>
      have hpress : Session.Renews _ [] _ ∧ _ :=
        GestureEditor.pointerDown_renews hs.session hs.gesture p button
      exact hpress.2
  | gridMove p => exact hs.gesture.pointerMove p
  | gridUp =>
      refine GestureEditor.Apart.of_ids_nil ?_
      show (s.gestures.pointerUp s.session).2.1.gesture.ids = []
      rw [GestureEditor.pointerUp_editor]
      rfl
  | gridCancel => exact GestureEditor.Apart.of_ids_nil rfl
  | _ => exact hnothing rfl rfl

/-- The velocity that is edited is that of a note there was. -/
theorem Numbered.editing_next (hs : s.Numbered) (e : Event α) {id : NoteId}
    (hid : id ∈ (s.next e).velocities.editing) : id < s.session.document.nextId := by
  cases e with
  | laneDown beat y =>
      have hid : (s.velocities.pointerDown s.session beat y).2.1.editing = some id := hid
      rcases s.velocities.pointerDown_cases s.session beat y with ⟨-, h⟩ | ⟨n, hhit, h⟩
      · rw [h] at hid
        exact hs.editing id hid
      · rw [h] at hid
        obtain rfl : n.id = id := Option.some.inj hid
        have hn := VelocityEditor.mem_of_hitTest? hhit
        exact hs.session.below _ ⟨_, .inl rfl, List.mem_map_of_mem hn⟩
  | laneUp =>
      have hid : (s.velocities.pointerUp s.session).2.1.editing = some id := hid
      rcases s.velocities.pointerUp_cases s.session with ⟨-, h⟩ | ⟨-, h⟩
      · rw [h] at hid
        exact hs.editing id hid
      · rw [h] at hid
        cases hid
  | laneCancel =>
      have hid : (s.velocities.cancel s.session).2.1.editing = some id := hid
      rw [s.velocities.cancel_editing] at hid
      cases hid
  | _ => exact hs.editing id hid

/-- The numbering is kept by everything that is done. -/
theorem Numbered.next (hs : s.Numbered) {e : Event α} (he : s.Admits e) :
    (s.next e).Numbered := by
  have hr := hs.renews he
  exact ⟨(s.step_moves hs.lives e).lives, hr.numbered, hs.next_apart he,
    fun id hid => Nat.lt_of_lt_of_le (hs.editing_next e hid) hr.nextId_le⟩

omit [NumberText α] [SoundOutput σ α] in
theorem Fresh.numbered {document : Document α} (h : s.Fresh document)
    (hd : document.Numbered) : s.Numbered := by
  have hlists : ∀ notes, s.session.Holds notes → notes = document.notes ∨ notes = [] := by
    rintro notes (rfl | rfl | hlog)
    · rw [h.session]
      exact .inl rfl
    · rw [h.session]
      exact .inr rfl
    · rw [h.session] at hlog
      exact .inl (List.mem_singleton.1 hlog)
  refine ⟨?_, ⟨fun notes hnotes => ?_, fun id ⟨notes, hnotes, hid⟩ => ?_⟩,
    GestureEditor.Apart.of_ids_nil (by rw [h.idle]; rfl), fun id hid => ?_⟩
  · rw [h.session]
    exact Selection.lives_empty _
  · rcases hlists notes hnotes with rfl | rfl
    · exact hd.distinct
    · exact List.nodup_nil
  · rcases hlists notes hnotes with rfl | rfl
    · rw [h.session]
      exact hd.below id hid
    · cases hid
  · rw [h.still] at hid
    cases hid

theorem Grown.numbered (h : s.Grown Document.Numbered Admits) : s.Numbered :=
  h.invariant (fun _ _ hd hfresh => hfresh.numbered hd) fun _ _ he hs => hs.next he

/-- In every state that use can lead to from a document without notes, or one whose
notes are numbered: the notes of the document are distinct by their identities,
and so are those of every snapshot and of the clipboard; whatever identity is in
one of these, is selected, or is known to a gesture or a drag in the lane, the one
that is given out next is beyond it; and a note that is being drawn is in none of
them. Whatever is done next, the identity given out next does not go back, and an
identity that comes up, other than by a commit from outside, was in use, is that
of the note drawn, or is new. -/
theorem identities_never_reused (h : s.Grown Document.Numbered Admits) :
    ((s.session.document.notes.map (·.id)).Nodup ∧
      (∀ snapshot ∈ s.session.history.log, (snapshot.map (·.id)).Nodup) ∧
      (s.session.clipboard.map (·.id)).Nodup) ∧
    (∀ id,
      (id ∈ s.session.document.notes.map (·.id) ∨
        (∃ snapshot ∈ s.session.history.log, id ∈ snapshot.map (·.id)) ∨
        id ∈ s.session.clipboard.map (·.id) ∨ id ∈ s.session.selection.ids ∨
        id ∈ s.gestures.gesture.ids ∨ s.velocities.editing = some id) →
      id < s.session.document.allocId.1) ∧
    (∀ id ∈ s.gestures.gesture.drawn, ¬ s.session.Uses id) ∧
    ∀ e, s.Admits e →
      s.session.document.nextId ≤ (s.next e).session.document.nextId ∧
      ((∀ notes, e ≠ .commitNotes notes) → ∀ id, (s.next e).session.Uses id →
        s.session.Uses id ∨ id ∈ s.gestures.gesture.drawn ∨ s.session.document.nextId ≤ id) := by
  have hs : s.Numbered := h.numbered
  have hdistinct := hs.session.distinct
  have hbelow := hs.session.below
  refine ⟨⟨hdistinct _ (.inl rfl), fun snapshot hlog => hdistinct _ (.inr (.inr hlog)),
    hdistinct _ (.inr (.inl rfl))⟩, ?_, hs.gesture.unused, fun e he => ?_⟩
  · rintro id (hdocument | ⟨snapshot, hlog, hid⟩ | hclip | hselected | hgesture | hediting)
    · exact hbelow id ⟨_, .inl rfl, hdocument⟩
    · exact hbelow id ⟨_, .inr (.inr hlog), hid⟩
    · exact hbelow id ⟨_, .inr (.inl rfl), hclip⟩
    · exact hbelow id ⟨_, .inl rfl, Document.contains_iff.1 (hs.lives id hselected)⟩
    · exact hs.gesture.below id hgesture
    · exact hs.editing id hediting
  · have hr := hs.renews he
    refine ⟨hr.nextId_le, fun hown id hid => ?_⟩
    rcases hr.source hid with huses | hgiven | hnew
    · exact .inl huses
    · cases e with
      | commitNotes notes => exact absurd rfl (hown notes)
      | gridUp => exact .inr (.inl hgiven)
      | _ => exact absurd hgiven List.not_mem_nil
    · exact .inr (.inr hnew)

/-- A note is drawn, copied, pasted and the copy taken back; while the next one is
being drawn it is pasted again. -/
def drawAgain : List (Event Float) :=
  [.gridDown ⟨40.0, 120.0⟩ .primary, .gridUp, .select [1], .copySelected, .pasteAt 2.0, .undo,
    .gridDown ⟨200.0, 240.0⟩ .primary, .pasteAt 8.0]

def midDrawing : Studio (Recorder Float) Float :=
  run ⟨Session.start .standard, .ofGrid .standard 6.0, .ofLane .standard, .ofTiming .standard,
    .start true 0.0⟩ drawAgain

/-- The four notes have four identities, and keep them when the drawing ends. -/
theorem midDrawing_identities :
    midDrawing.Grown Document.Numbered Admits ∧
    midDrawing.session.history.log.map (·.map (·.id)) = [[], [1], [1, 4]] ∧
    midDrawing.session.clipboard.map (·.id) = [1] ∧ midDrawing.gestures.gesture.drawn = [3] ∧
    midDrawing.session.document.allocId.1 = 5 ∧ ¬ midDrawing.session.Uses 3 ∧
    ∀ id, (midDrawing.next .gridUp).session.Uses id →
      midDrawing.session.Uses id ∨ id = 3 ∨ 5 ≤ id := by
  have hgrown : midDrawing.Grown Document.Numbered Admits :=
    ⟨_, _, drawAgain, Document.numbered_of_nil rfl, ⟨rfl, rfl, rfl⟩, ⟨trivial, trivial, trivial, trivial, trivial,
      trivial, trivial, trivial, trivial⟩, rfl⟩
  have hdrawn : midDrawing.gestures.gesture.drawn = [3] := by decide +kernel
  have hnext : midDrawing.session.document.nextId = 5 := by decide +kernel
  obtain ⟨-, -, hunused, hevents⟩ := identities_never_reused hgrown
  refine ⟨hgrown, by decide +kernel, by decide +kernel, hdrawn, by decide +kernel, ?_,
    fun id hid => ?_⟩
  · exact hunused 3 (hdrawn ▸ List.mem_singleton.2 rfl)
  · have hsource := (hevents .gridUp trivial).2 nofun id hid
    rw [hdrawn, hnext, List.mem_singleton] at hsource
    exact hsource

end Studio

end NoteRoll
