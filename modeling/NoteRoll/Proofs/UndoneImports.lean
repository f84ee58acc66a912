import NoteRoll.App
import NoteRoll.Proofs.Reopening
import NoteRoll.Proofs.UndoSteps

/-!
# Imports that are taken back

An import replaces the notes and the tracks. The history holds notes only, so a step back from
an import brings the old notes home to the new tracks. Whether they have a home there is up to
the text: it has to list the track of each of them, or no track at all, which leaves the old
ones in place.

A note without a track is still in the document. It is left out where the notes are packed, and
so the piece that is written after the step back has lost it. `undone_import` is that this is
all that can happen to the piece, for tracks that are listed once.
-/

namespace NoteRoll

variable {α : Type}

namespace Document

/-- Every note lies on a track of the list. -/
def Housed (d : Document α) : Prop := ∀ n ∈ d.notes, n.track ∈ d.tracks.map (·.id)

/-- No note lies on a track that is listed more than once. -/
def Unrepeated (d : Document α) : Prop :=
  ∀ n ∈ d.notes, (d.tracks.map (·.id)).count n.track ≤ 1

instance instDecidableHoused (d : Document α) : Decidable d.Housed :=
  inferInstanceAs (Decidable (∀ n ∈ d.notes, n.track ∈ d.tracks.map (·.id)))

instance instDecidableUnrepeated (d : Document α) : Decidable d.Unrepeated :=
  inferInstanceAs (Decidable (∀ n ∈ d.notes, (d.tracks.map (·.id)).count n.track ≤ 1))

theorem housed_iff_count {d : Document α} (honce : d.Unrepeated) :
    d.Housed ↔ ∀ n ∈ d.notes, (d.tracks.map (·.id)).count n.track = 1 := by
  refine forall₂_congr fun n hn => ?_
  have hmost := honce n hn
  rw [← List.count_pos_iff]
  omega

/-- What is packed and laid out is all the notes, in another order, just if all are housed. -/
theorem flatten_perm_iff [Scalar α] {d : Document α} (honce : d.Unrepeated) (firstId : NoteId) :
    (((Piece.ofDocument d).flatten firstId).map Note.content).Perm
        ((d.notes.map Note.relaid).map Note.content) ↔ d.Housed := by
  have hcontents := Piece.contents_pack_relaid d.notes d.bpm d.tracks firstId
  rw [Piece.ofDocument, hcontents, Piece.regrouped_perm_iff, housed_iff_count honce,
    List.forall_mem_map]
  rfl

end Document

namespace Session

variable [Scalar α]

/-- A step back from a piece that was taken over. -/
theorem undo_applyPiece {s : Session α} (hsettled : s.IsSettled) (p : Piece α) :
    ∃ t, (s.applyPiece p).2.undo = (true, t) ∧ t.document.notes = s.document.notes ∧
      t.document.tracks = (s.applyPiece p).2.document.tracks := by
  obtain ⟨history, hhistory⟩ : ∃ history, (s.applyPiece p).2.history.undo? = some history ∧
      history.present = s.document.notes := by
    rw [(s.applyPiece_step p).moves.history_eq, Mark.after, History.undo?_commit]
    exact ⟨_, rfl, hsettled.symm⟩
  rw [undo, hhistory.1]
  exact ⟨_, rfl, hhistory.2, rfl⟩

theorem applyPiece_no_tracks (s : Session α) {p : Piece α} (htracks : p.tracks = []) :
    (s.applyPiece p).2.document.tracks = s.document.tracks := by
  rw [applyPiece, takeTracks, htracks, if_pos List.isEmpty_nil, Document.setBpm]
  split <;> rfl

/-- A piece is taken over by a session that has nothing uncommitted and a track for every note,
and then one step is taken back. -/
theorem undone_piece {s : Session α} (hsettled : s.IsSettled) (hhoused : s.document.Housed)
    (p : Piece α) :
    ∃ t, (s.applyPiece p).2.undo = (true, t) ∧
      t.document.notes = s.document.notes ∧
      t.document.tracks = (if p.tracks = [] then s.document.tracks else p.tracks) ∧
      (t.document.Housed ↔
        p.tracks = [] ∨ ∀ n ∈ s.document.notes, n.track ∈ p.tracks.map (·.id)) ∧
      (s.document.Unrepeated → t.document.Unrepeated → ∀ i j,
        (((t.toPiece.flatten i).map Note.content).Perm ((s.toPiece.flatten j).map Note.content) ↔
          t.document.Housed)) := by
  obtain ⟨t, hundo, hnotes, hkept⟩ := undo_applyPiece hsettled p
  have htracks : t.document.tracks = if p.tracks = [] then s.document.tracks else p.tracks := by
    rw [hkept]
    split
    · next hnone => exact s.applyPiece_no_tracks hnone
    · next hsome => exact s.applyPiece_tracks hsome
  refine ⟨t, hundo, hnotes, htracks, ?_, fun honce honce' i j => ?_⟩
  · rw [Document.Housed, hnotes, htracks]
    split
    · next hnone => exact ⟨fun _ => .inl hnone, fun _ => hhoused⟩
    · next hsome => exact ⟨.inr, fun h => h.resolve_left hsome⟩
  · have hbefore := (Document.flatten_perm_iff honce j).2 hhoused
    rw [← hnotes] at hbefore
    calc ((t.toPiece.flatten i).map Note.content).Perm ((s.toPiece.flatten j).map Note.content)
        ↔ ((t.toPiece.flatten i).map Note.content).Perm
            ((t.document.notes.map Note.relaid).map Note.content) :=
          ⟨fun h => h.trans hbefore, fun h => h.trans hbefore.symm⟩
      _ ↔ t.document.Housed := Document.flatten_perm_iff honce' i

/-- A text is taken over by a session that has nothing uncommitted and a track for every note,
and then one step is taken back. The notes are those from before, and the tracks are those of
the text, or those from before if it has none. Every note has a track again, and the piece of
the session has the same notes again, exactly if the text lists no track or the tracks of all
those notes. -/
theorem undone_import [NumberText α] {s s' : Session α} {text : String} {count : Nat}
    (hsettled : s.IsSettled) (hhoused : s.document.Housed)
    (himport : s.importText text = (.ok count, s')) :
    ∃ (p : Piece α) (t : Session α), Piece.ofText text = .ok p ∧ s'.undo = (true, t) ∧
      t.document.notes = s.document.notes ∧
      t.document.tracks = (if p.tracks = [] then s.document.tracks else p.tracks) ∧
      (t.document.Housed ↔
        p.tracks = [] ∨ ∀ n ∈ s.document.notes, n.track ∈ p.tracks.map (·.id)) ∧
      (s.document.Unrepeated → t.document.Unrepeated → ∀ i j,
        (((t.toPiece.flatten i).map Note.content).Perm ((s.toPiece.flatten j).map Note.content) ↔
          t.document.Housed)) := by
  obtain ⟨p, htext, rfl⟩ := importText_ok himport
  obtain ⟨t, hundone⟩ := undone_piece hsettled hhoused p
  exact ⟨p, t, htext, hundone⟩

/-- A session on one note. -/
def single (tracks : List Track) (track : TrackId) : Session Float :=
  .start ((Document.empty tracks 120.0).replaceNotes [.ofFields 1 60 0.0 1.0 40 track])

theorem importText_song (s : Session Float) :
    s.importText song = (.ok 4, (s.applyPiece songPiece).2) := by
  rw [importText, ofText_song]
  rfl

/-- The text has the track of the note, among others than the session had. -/
theorem hat_undone :
    let s := single [⟨"kick", "Kick", .percussion, false⟩, ⟨"hat", "Hat", .percussion, true⟩]
      "hat"
    s.IsSettled ∧ s.document.Housed ∧ ∃ s' t, s.importText song = (.ok 4, s') ∧
      s'.undo = (true, t) ∧ t.document.tracks = songPiece.tracks ∧ t.document.Housed ∧
      ∀ i j, ((t.toPiece.flatten i).map Note.content).Perm
        ((s.toPiece.flatten j).map Note.content) := by
  intro s
  have hsettled : s.IsSettled := rfl
  have hhoused : s.document.Housed := by decide +kernel
  have honce : s.document.Unrepeated := by decide +kernel
  have himport := importText_song s
  obtain ⟨p, t, htext, hundo, hnotes, htracks, hhome, hsame⟩ :=
    undone_import hsettled hhoused himport
  obtain rfl : songPiece = p := Except.ok.inj (ofText_song.symm.trans htext)
  rw [if_neg (by decide)] at htracks
  have honce' : t.document.Unrepeated := by
    rw [Document.Unrepeated, hnotes, htracks]
    decide +kernel
  have hhoused' : t.document.Housed := hhome.2 (.inr (by decide +kernel))
  exact ⟨hsettled, hhoused, _, t, himport, hundo, htracks, hhoused', fun i j =>
    (hsame honce honce' i j).2 hhoused'⟩

/-- The text has not the track of the note. Back on the tracks of the text the note is there
and is not exported any more. -/
theorem piano_unhoused :
    let s := single Track.defaults "t_piano"
    (App.start s (Recorder.start true 0.0) .standard none).studio.Reachable ∧
    s.IsSettled ∧ s.document.Housed ∧ ∃ s' t, s.importText song = (.ok 4, s') ∧
      s'.undo = (true, t) ∧ t.document.notes = s.document.notes ∧ ¬ t.document.Housed ∧
      ∀ i j, ¬ ((t.toPiece.flatten i).map Note.content).Perm
        ((s.toPiece.flatten j).map Note.content) := by
  intro s
  have hsettled : s.IsSettled := rfl
  have hhoused : s.document.Housed := by decide +kernel
  have honce : s.document.Unrepeated := by decide +kernel
  obtain ⟨t, hundo, hnotes, htracks, hhome, hsame⟩ := undone_piece hsettled hhoused songPiece
  rw [if_neg (by decide)] at htracks
  have honce' : t.document.Unrepeated := by
    rw [Document.Unrepeated, hnotes, htracks]
    decide +kernel
  have hunhoused : ¬ t.document.Housed := by
    rw [Document.Housed, hnotes, htracks]
    decide +kernel
  exact ⟨Studio.reachable_run _ _ _ _ _ [], hsettled, hhoused, _, t, importText_song s, hundo,
    hnotes, hunhoused, fun i j hperm => hunhoused ((hsame honce honce' i j).1 hperm)⟩

end Session

end NoteRoll
