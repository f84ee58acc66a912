import NoteRoll.Proofs.DecodedPieces
import NoteRoll.Proofs.Regrouping
import NoteRoll.Proofs.UndoneImports

/-!
# A piece is taken over as a whole or not at all

Importing a text and asking a service for a piece come down to one thing: there is an error
and the session is as it was, or there is a piece and it is taken over. What a session is after
a piece was taken over is said by `Session.Took`, clause by clause and without the operations
that brought it about. Where its notes come from is said by their places in the list: behind the
notes of all the clips that were placed before come those of this one, in order.

Whether a piece comes from a text matters in two clauses only. Its tempo is a usable one and its
onsets are finite, so there the tempo is always taken over and no onset is replaced by zero.
-/

namespace NoteRoll

namespace Piece

/-- The notes of the clip that is placed; none where there is no such clip. -/
def clipOf (p : Piece Float) (a : Placement) : List (ClipNote Float) :=
  (p.clips.lookup a.clip).getD []

/-- Where a note begins that is placed with its clip. -/
def onset (a : Placement) (m : ClipNote Float) : Float :=
  m.start + Scalar.ofNat a.startBar * beatsPerBar

/-- The tempo and the onsets are as in any piece that was read from a text. -/
structure Plain (p : Piece Float) : Prop where
  tempo : Tempo.isValid p.bpm = true
  onsets : ∀ a ∈ p.arrangement, ∀ m ∈ p.clipOf a, (onset a m).isFinite = true

theorem plain_of_ofText {text : String} {p : Piece Float} (h : ofText text = .ok p) : p.Plain := by
  refine ⟨ofText_tempo h, fun a ha m hm => ?_⟩
  rw [clipOf] at hm
  cases hclip : p.clips.lookup a.clip with
  | none =>
      rw [hclip] at hm
      exact absurd hm List.not_mem_nil
  | some clip =>
      rw [hclip] at hm
      exact isFinite_onset_of_ofText h ha hclip hm

theorem ids_flatten (p : Piece Float) (firstId : NoteId) :
    (p.flatten firstId).map (·.id) = List.range' firstId p.laidOut.length :=
  ids_mapIdx (fun _ _ => rfl) _

/-- The notes of the clips are laid out one clip after the other. -/
theorem length_laidOut (p : Piece Float) :
    p.laidOut.length = (p.arrangement.map fun a => (p.clipOf a).length).sum := by
  rw [laidOut, List.length_flatMap]
  simp only [List.length_map]
  rfl

theorem getElem?_laidOut {p : Piece Float} {before after : List Placement} {a : Placement}
    (hplaced : p.arrangement = before ++ a :: after) {j : Nat} {m : ClipNote Float}
    (hm : (p.clipOf a)[j]? = some m) :
    p.laidOut[(before.map fun b => (p.clipOf b).length).sum + j]? = some (a, m) := by
  have hlength : (before.flatMap fun b => (p.clipOf b).map fun m => (b, m)).length =
      (before.map fun b => (p.clipOf b).length).sum := by
    rw [List.length_flatMap]
    simp only [List.length_map]
  have hj := (List.getElem?_eq_some_iff.1 hm).1
  have hlaid : p.laidOut = (before.flatMap fun b => (p.clipOf b).map fun m => (b, m)) ++
      ((p.clipOf a).map (fun m => (a, m)) ++
        after.flatMap fun b => (p.clipOf b).map fun m => (b, m)) := by
    rw [laidOut, hplaced, List.flatMap_append, List.flatMap_cons]
    rfl
  rw [hlaid, List.getElem?_append_right (by omega), hlength, Nat.add_sub_cancel_left,
    List.getElem?_append_left (by rwa [List.length_map]), List.getElem?_map, hm]
  rfl

end Piece

/-- A note of a session is a note of a clip, where the clip is placed. -/
structure Note.Lays (n : Note Float) (a : Placement) (m : ClipNote Float) : Prop where
  start : (Piece.onset a m).isFinite = true → n.start = Scalar.larger (Piece.onset a m) 0
  startless : (Piece.onset a m).isFinite = false → n.start = 0
  pitch : n.pitch = intoRange 0 127 m.pitch
  duration : n.duration =
    if m.duration.isFinite = true ∧ 0 < m.duration then m.duration else minDuration
  velocity : n.velocity = intoRange 1 127 m.velocity
  track : n.track = m.track.getD a.track

theorem Piece.lays_unpackNote (a : Placement) (id : NoteId) (m : ClipNote Float) :
    (Piece.unpackNote a id m).Lays a m where
  start hfinite := if_pos hfinite
  startless hfinite := if_neg fun h => Bool.false_ne_true (hfinite.symm.trans h)
  pitch := rfl
  duration := by
    show (if (m.duration.isFinite && decide (0 < m.duration)) = true then m.duration
      else Note.minDuration) = _
    simp only [Bool.and_eq_true, decide_eq_true_iff]
  velocity := rfl
  track := rfl

/-! ## Notes in range -/

theorem Binary64.le_of_lt {x y : Float} (h : x < y) : x ≤ y := by
  have hlt : x.toModel.unpack.lt y.toModel.unpack = true := of_decide_eq_true h
  have hcompare := beq_iff_eq.1 hlt
  have hle : x.toModel.unpack.le y.toModel.unpack = true := by
    rw [Float.Model.UnpackedFloat.le, hcompare]
    rfl
  exact decide_eq_true hle

theorem Note.IsOnset.proper {x : Float} (h : IsOnset x) : x.isFinite = true ∧ 0.0 ≤ x := by
  rcases h with rfl | ⟨hfinite, hpos⟩
  · decide +kernel
  · exact ⟨hfinite, Binary64.le_of_lt hpos⟩

theorem Note.proper_ofFields (id : NoteId) (pitch : Int) (start duration : Float) (velocity : Int)
    (track : TrackId) : (Note.ofFields id pitch start duration velocity track).Proper where
  pitch := (intoRange_mem (Nat.zero_le _) pitch).2
  start := (ofFields_onset id pitch start duration velocity track).proper
  duration := by
    rw [ofFields]
    dsimp only
    split
    · next hkept =>
        rw [Bool.and_eq_true, decide_eq_true_iff] at hkept
        exact hkept
    · decide +kernel
  heard := (intoRange_mem (by decide) velocity).1
  loudest := (intoRange_mem (by decide) velocity).2

/-! ## What a session has taken over -/

theorem Document.idAfter_le {notes : List (Note Float)} {k : NoteId} (h : ∀ n ∈ notes, n.id < k) :
    idAfter notes ≤ k := by
  have hfold : ∀ (l : List (Note Float)) (m : NoteId), m ≤ k → (∀ n ∈ l, n.id < k) →
      l.foldl (fun m n => max m (n.id + 1)) m ≤ k := by
    intro l
    induction l with
    | nil => exact fun m hm _ => hm
    | cons n l ih =>
        intro m hm hl
        obtain ⟨hn, hl⟩ := List.forall_mem_cons.1 hl
        exact ih _ (Nat.max_le.2 ⟨hm, hn⟩) hl
  exact hfold notes 0 (Nat.zero_le k) h

namespace Session

/-- A session after it has taken over a piece. -/
structure Took (s : Session Float) (p : Piece Float) (count : Nat) (t : Session Float) : Prop where
  tempo : Tempo.isValid p.bpm = true → t.document.bpm = p.bpm
  kept : p.tracks = [] →
    t.document.tracks = s.document.tracks ∧ t.activeTrack = s.activeTrack ∧ t.hidden = s.hidden
  tracks : ∀ first others, p.tracks = first :: others →
    t.document.tracks = p.tracks ∧ t.activeTrack = first.id ∧
      t.hidden = s.hidden.filter fun id => decide (id ∈ p.tracks.map (·.id))
  total : count = (p.arrangement.map fun a => (p.clipOf a).length).sum
  ids : t.document.notes.map (·.id) = List.range' s.document.nextId count
  nextId : t.document.nextId = s.document.nextId + count
  fresh : s.Numbered → ∀ n ∈ t.document.notes, ¬ s.Uses n.id
  placed : ∀ before a after, p.arrangement = before ++ a :: after →
    ∀ j m, (p.clipOf a)[j]? = some m → ∃ n, n.Lays a m ∧
      t.document.notes[(before.map fun b => (p.clipOf b).length).sum + j]? = some n
  proper : ∀ n ∈ t.document.notes, n.Proper
  history : t.history = s.history.commit t.document.notes
  selection : t.selection = .empty
  others : t.clipboard = s.clipboard ∧ t.snap = s.snap ∧ t.tool = s.tool ∧ t.remote = s.remote

variable (s : Session Float) (p : Piece Float)

theorem applyPiece_tracks_of_nil (h : p.tracks = []) :
    (s.applyPiece p).2.document.tracks = s.document.tracks ∧
      (s.applyPiece p).2.activeTrack = s.activeTrack ∧ (s.applyPiece p).2.hidden = s.hidden := by
  rw [applyPiece, takeTracks, h, if_pos List.isEmpty_nil, Document.setBpm]
  split <;> exact ⟨rfl, rfl, rfl⟩

theorem applyPiece_tracks_of_cons {first : Track} {others : List Track}
    (h : p.tracks = first :: others) :
    (s.applyPiece p).2.document.tracks = p.tracks ∧ (s.applyPiece p).2.activeTrack = first.id ∧
      (s.applyPiece p).2.hidden =
        s.hidden.filter fun id => decide (id ∈ p.tracks.map (·.id)) := by
  have hsome : ¬ p.tracks.isEmpty = true := by
    rw [h]
    exact Bool.false_ne_true
  have hlisted : (fun id => p.tracks.any fun t => t.id == id) =
      fun id => decide (id ∈ p.tracks.map (·.id)) := by
    funext id
    rw [Bool.eq_iff_iff, decide_eq_true_iff, List.any_eq_true, List.mem_map]
    simp only [beq_iff_eq]
  rw [applyPiece, takeTracks, if_neg hsome, hlisted, Document.setBpm]
  refine ⟨rfl, ?_, ?_⟩
  · show Track.first p.tracks = first.id
    rw [h]
    rfl
  · split <;> rfl

theorem applyPiece_others :
    (s.applyPiece p).2.clipboard = s.clipboard ∧ (s.applyPiece p).2.snap = s.snap ∧
      (s.applyPiece p).2.tool = s.tool ∧ (s.applyPiece p).2.remote = s.remote := by
  rw [applyPiece, takeTracks, Document.setBpm]
  split <;> split <;> exact ⟨rfl, rfl, rfl, rfl⟩

theorem applyPiece_took : s.Took p (s.applyPiece p).1 (s.applyPiece p).2 := by
  obtain ⟨hnotes, hnext, -⟩ := s.applyPiece_notes p
  have hids := p.ids_flatten s.document.nextId
  have hlength : (p.flatten s.document.nextId).length = p.laidOut.length := List.length_mapIdx
  have hcount : (s.applyPiece p).1 = p.laidOut.length := by
    rw [applyPiece_count, hnotes, hlength]
  have hmem : ∀ n ∈ p.flatten s.document.nextId,
      s.document.nextId ≤ n.id ∧ n.id < s.document.nextId + p.laidOut.length := by
    intro n hn
    have hid : n.id ∈ (p.flatten s.document.nextId).map (·.id) := List.mem_map_of_mem hn
    rw [hids] at hid
    simpa using hid
  refine ⟨applyPiece_bpm s, applyPiece_tracks_of_nil s p,
    fun _ _ h => applyPiece_tracks_of_cons s p h, ?_, ?_, ?_, fun hs n hn huses => ?_,
    fun before a after hplaced j m hm => ?_, fun n hn => ?_, (s.applyPiece_step p).moves.history_eq,
    rfl, applyPiece_others s p⟩
  · rw [hcount, p.length_laidOut]
  · rw [hnotes, hids, hcount]
  · rw [hnext, hlength, hcount]
    exact max_eq_left (Document.idAfter_le fun n hn => (hmem n hn).2)
  · rw [hnotes] at hn
    exact absurd (hs.below n.id huses) (Nat.not_lt.2 (hmem n hn).1)
  · refine ⟨_, Piece.lays_unpackNote a (s.document.nextId +
      ((before.map fun b => (p.clipOf b).length).sum + j)) m, ?_⟩
    rw [hnotes, Piece.flatten, List.getElem?_mapIdx, Piece.getElem?_laidOut hplaced hm]
    rfl
  · obtain ⟨place, id, m, rfl⟩ := s.applyPiece_unpacked p n hn
    exact Note.proper_ofFields _ _ _ _ _ _

/-! ## Import and generation -/

/-- There is an error and the session is as it was, or there is a piece and it was taken over. -/
def AllOrNothing {ε : Type} (answer : Except ε (Piece Float))
    (outcome : Except ε Nat × Session Float) : Prop :=
  (∃ e, answer = .error e ∧ outcome = (.error e, s)) ∨
    ∃ p count t, answer = .ok p ∧ outcome = (.ok count, t) ∧ s.Took p count t

theorem allOrNothing_applyResult {ε : Type} (answer : Except ε (Piece Float)) :
    s.AllOrNothing answer (s.applyResult answer) := by
  cases answer with
  | error e => exact .inl ⟨e, rfl, rfl⟩
  | ok p => exact .inr ⟨p, _, _, rfl, rfl, s.applyPiece_took p⟩

end Session

theorem Piece.ofAnswer_tempo {answer : Json} {p : Piece Float}
    (h : Piece.ofAnswer answer = .ok p) : Tempo.isValid p.bpm = true := by
  unfold Piece.ofAnswer at h
  split at h
  · cases h
  · split at h
    · next p' hvalue =>
        cases h
        unfold Piece.ofValue Piece.ofReading at hvalue
        split at hvalue
        · cases hvalue
        · exact Piece.ofDraft_tempo hvalue
    · cases h

/-! ## Between operations -/

namespace Studio

variable {σ : Type} [SoundOutput σ Float]

/-- The service is asked within one operation, so between two of them nothing is going on. -/
theorem Reachable.idle {s : Studio σ Float} (h : s.Reachable) : s.session.remote = .idle :=
  h.invariant (P := fun session => session.remote = .idle) (fun _ => rfl)
    fun s e hs => (s.next_remote e).elim (·.trans hs) id

end Studio

namespace Session

/-- A piece from a text or from a service is taken over as a whole or not at all. No text and no
answer that is read brings a tempo that is not taken over, and between two operations the service
is not being asked, so that where there is no piece nothing at all has changed. -/
theorem exchange_all_or_nothing {σ : Type} [SoundOutput σ Float] (s : Session Float) :
    (∀ text, s.AllOrNothing (Piece.ofText text) (s.importText text) ∧
      ∀ p, Piece.ofText text = .ok p → p.Plain) ∧
    (∀ (service : ComposeService Float) (prompt : String),
      { s with remote := .idle }.AllOrNothing (service.generate prompt)
        (s.generate service prompt)) ∧
    (∀ answer p, Piece.ofAnswer answer = .ok p → Tempo.isValid (p.bpm : Float) = true) ∧
    ∀ studio : Studio σ Float, studio.Reachable → studio.session = s →
      s.remote = .idle ∧ { s with remote := .idle } = s := by
  refine ⟨fun text => ⟨s.allOrNothing_applyResult _, fun p => Piece.plain_of_ofText⟩,
    fun service prompt => allOrNothing_applyResult _ _, fun answer p => Piece.ofAnswer_tempo,
    fun studio hreachable hsession => ?_⟩
  have hidle := hreachable.idle
  rw [hsession] at hidle
  exact ⟨hidle, by rw [← hidle]⟩

theorem song_taken :
    (∃ e, fresh.importText "" = (.error e, fresh)) ∧
    fresh.importText song = (.ok 4, songSession) ∧ fresh.Took songPiece 4 songSession ∧
    songSession.document.notes.map (fun n => (n.id, n.start, n.track)) =
      [(1, 0.5, "lead"), (2, 3.0, "hat"), (3, 4.5, "lead"), (4, 7.0, "hat")] := by
  obtain ⟨himport, -, -, -⟩ := exchange_all_or_nothing (σ := Recorder Float) fresh
  have hsong : fresh.importText song = (.ok 4, songSession) := by
    rw [importText, ofText_song]
    rfl
  refine ⟨?_, hsong, ?_, by decide +kernel⟩
  · rcases (himport "").1 with ⟨e, -, hrefused⟩ | ⟨p, count, t, htext, -⟩
    · exact ⟨e, hrefused⟩
    · cases htext
  · rcases (himport song).1 with ⟨e, htext, -⟩ | ⟨p, count, t, htext, htaken, htook⟩
    · rw [ofText_song] at htext
      cases htext
    · rw [ofText_song] at htext
      rw [hsong] at htaken
      cases htext
      cases htaken
      exact htook

end Session

end NoteRoll
