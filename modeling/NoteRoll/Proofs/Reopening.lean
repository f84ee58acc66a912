import NoteRoll.Proofs.Binary64
import NoteRoll.Proofs.Identities
import NoteRoll.Proofs.Packing
import NoteRoll.Proofs.StoredPieces

/-!
# Storing a session's piece and opening it again

A text that a session writes is never rejected, and opening it brings back the tempo and the
tracks. The notes come back grouped by the tracks of the list, which is a mere change of
order exactly if each track that has notes is listed once: packing writes the clip of a track
for each place in the list that the track has, and nothing keeps a text from naming a track
twice.

What is asked of numbers is that their stored texts are read back as the same numbers.
-/

namespace NoteRoll

open Json.Decoder (ReadsBack)

/-- The numbers of a document that are stored as decimals. -/
def Document.numbers {α : Type} (d : Document α) : List α :=
  d.bpm :: d.notes.flatMap fun n => [n.start, n.duration]

namespace Piece

variable {α : Type} [Scalar α]

theorem ofDraft_tempo {d : Draft α} {p : Piece α} (h : ofDraft d = .ok p) :
    Tempo.isValid p.bpm = true := by
  unfold ofDraft at h
  split at h
  · cases h
  · next bpm _ =>
      split at h
      · cases h
      · next hvalid =>
          rw [Bool.not_eq_true', Bool.not_eq_false] at hvalid
          split at h
          · cases h
          · split at h
            · cases h
            · cases h
              exact hvalid

/-- A piece that is read from a text has a usable tempo. -/
theorem ofText_tempo [NumberText α] {text : String} {p : Piece α} (h : ofText text = .ok p) :
    Tempo.isValid p.bpm = true := by
  unfold ofText ofReading at h
  split at h
  · cases h
  · exact ofDraft_tempo h

end Piece

namespace Session

section Exchange

variable {α : Type} [Scalar α]

theorem applyPiece_bpm (s : Session α) {p : Piece α} (htempo : Tempo.isValid p.bpm = true) :
    (s.applyPiece p).2.document.bpm = p.bpm := by
  rw [applyPiece, takeTracks, Document.setBpm, if_pos htempo]
  split <;> rfl

theorem applyPiece_tracks (s : Session α) {p : Piece α} (htracks : p.tracks ≠ []) :
    (s.applyPiece p).2.document.tracks = p.tracks := by
  have hempty : ¬ p.tracks.isEmpty = true := fun h => htracks (List.isEmpty_iff.1 h)
  rw [applyPiece, takeTracks, if_neg hempty]
  rfl

theorem applyPiece_count (s : Session α) (p : Piece α) :
    (s.applyPiece p).1 = (s.applyPiece p).2.document.notes.length := by
  rw [(s.applyPiece_notes p).1, applyPiece, takeTracks, Document.setBpm]
  split <;> split <;> rfl

/-- The notes of a piece that is taken over were brought into their ranges. -/
theorem applyPiece_unpacked (s : Session α) (p : Piece α) :
    ∀ n ∈ (s.applyPiece p).2.document.notes, ∃ place id m, n = Piece.unpackNote place id m := by
  intro n hn
  rw [(s.applyPiece_notes p).1, Piece.flatten, List.mapIdx_eq_zipIdx_map] at hn
  obtain ⟨c, -, rfl⟩ := List.mem_map.1 hn
  exact ⟨_, _, _, rfl⟩

variable [NumberText α]

theorem importText_ok {s s' : Session α} {text : String} {count : Nat}
    (h : s.importText text = (.ok count, s')) :
    ∃ p, Piece.ofText text = .ok p ∧ s' = (s.applyPiece p).2 := by
  unfold importText applyResult at h
  split at h
  · cases (Prod.mk.inj h).1
  · next p hp => exact ⟨p, hp, (Prod.mk.inj h).2.symm⟩

/-- The text that a session writes is accepted, and what it brings back. -/
theorem importText_exportText {s : Session α} (htempo : Tempo.isValid s.document.bpm = true)
    (htracks : s.document.tracks ≠ []) (hsettled : ∀ n ∈ s.document.notes, n.Settled)
    (hlegible : Piece.Legible s.toPiece) (t : Session α) :
    ∃ t', t.importText s.exportText = (.ok t'.document.notes.length, t') ∧
      t'.document.bpm = s.document.bpm ∧
      t'.document.tracks = s.document.tracks ∧
      t'.document.notes.map Note.content = s.document.tracks.flatMap fun track =>
        (s.document.notes.filter fun n => n.track == track.id).map Note.content := by
  have htext : Piece.ofText s.exportText = .ok s.toPiece := hlegible.ofText_toText htempo
  obtain ⟨hnotes, -, -⟩ := t.applyPiece_notes s.toPiece
  refine ⟨(t.applyPiece s.toPiece).2, ?_, t.applyPiece_bpm htempo, t.applyPiece_tracks htracks,
    ?_⟩
  · rw [importText, htext, ← t.applyPiece_count]
    rfl
  · rw [hnotes]
    exact Piece.contents_pack hsettled _ _ _

end Exchange

/-! ## The arithmetic of the program -/

/-- The piece of a session can be stored without loss if the numbers of the session are read
back. -/
theorem legible_toPiece {s : Session Float}
    (hranges : ∀ n ∈ s.document.notes, n.pitch ≤ Pitch.highest ∧ n.velocity ≤ Note.maxVelocity)
    (hnumbers : ∀ x ∈ s.document.numbers, ReadsBack x) : Piece.Legible s.toPiece := by
  have hwide : ∀ k : Nat, k ≤ 127 →
      -9223372036854775808 ≤ (k : Int) ∧ (k : Int) ≤ 9223372036854775807 := by
    intro k hk
    omega
  have htyped : s.toPiece.Typed := by
    refine ⟨fun c hc m hm => ?_, fun c hc m hm => ?_, fun a ha => ?_, Piece.pack_sorted _⟩
    · obtain ⟨n, hn, rfl⟩ := Piece.of_mem_pack hc m hm
      exact hwide n.pitch (hranges n hn).1
    · obtain ⟨n, hn, rfl⟩ := Piece.of_mem_pack hc m hm
      exact hwide n.velocity (hranges n hn).2
    · obtain ⟨c, -, rfl⟩ := List.mem_map.1 ha
      exact Nat.zero_le _
  refine htyped.legible fun x hx => hnumbers x ?_
  rcases List.mem_cons.1 hx with rfl | hx
  · exact List.mem_cons_self
  · obtain ⟨c, hc, hx⟩ := List.mem_flatMap.1 hx
    obtain ⟨m, hm, hx⟩ := List.mem_flatMap.1 hx
    obtain ⟨n, hn, rfl⟩ := Piece.of_mem_pack hc m hm
    exact List.mem_cons_of_mem _ (List.mem_flatMap.2 ⟨n, hn, hx⟩)

/-- What a session that has taken over a text writes is opened as the same tempo, the same
tracks, and the notes of each listed track. -/
theorem reopens {s₀ s : Session Float} {text : String} {count : Nat}
    (himport : s₀.importText text = (.ok count, s)) (htracks : s.document.tracks ≠ [])
    (hnumbers : ∀ x ∈ s.document.numbers, ReadsBack x) (t₀ : Session Float) :
    ∃ t, t₀.importText s.exportText = (.ok t.document.notes.length, t) ∧
      t.document.bpm = s.document.bpm ∧
      t.document.tracks = s.document.tracks ∧
      t.document.notes.map Note.content = s.document.tracks.flatMap fun track =>
        (s.document.notes.filter fun n => n.track == track.id).map Note.content := by
  obtain ⟨p, htext, rfl⟩ := importText_ok himport
  have htempo := Piece.ofText_tempo htext
  rw [← s₀.applyPiece_bpm htempo] at htempo
  have hunpacked := s₀.applyPiece_unpacked p
  refine importText_exportText htempo htracks (fun n hn => ?_) (legible_toPiece (fun n hn => ?_)
    hnumbers) t₀
  · obtain ⟨place, id, m, rfl⟩ := hunpacked n hn
    exact Note.ofFields_settled _ _ _ _ _ _
  · obtain ⟨place, id, m, rfl⟩ := hunpacked n hn
    exact ⟨Note.ofFields_pitch_le _ _ _ _ _ _, Note.ofFields_velocity_le _ _ _ _ _ _⟩

/-! ## From texts -/

deriving instance DecidableEq for ClipNote, Piece.Draft

/-- What a text is read as, seen from its characters. -/
theorem ofText_of_read {α : Type} [Scalar α] [NumberText α] {text : String} {cs : List Char}
    {d : Piece.Draft α} {p : Piece α} (hchars : text = String.ofList cs)
    (hread : (Piece.draftDecoder.fromText cs).toOption = some (d, []))
    (hpiece : Piece.ofDraft d = .ok p) : Piece.ofText text = .ok p := by
  have hread : Piece.draftDecoder.fromText cs = .ok (d, []) := by
    cases h : (Piece.draftDecoder : Json.Decoder (Piece.Draft α)).fromText cs with
    | error fault =>
        rw [h] at hread
        cases hread
    | ok r =>
        rw [h] at hread
        rw [Option.some.inj hread]
  rw [Piece.ofText, Json.Decoder.ofText, hchars, String.toList_ofList, hread]
  exact hpiece

/-- The session that the program starts with. -/
def fresh : Session Float := .start .standard

/-- What a session that has taken over a text writes is opened as the same tempo and the same
tracks. It is the same notes apart from their identities and their order, none lost and none
doubled, exactly if each track that has notes is listed once. -/
theorem reopened_perm_iff {s₀ s : Session Float} {text : String} {count : Nat}
    (himport : s₀.importText text = (.ok count, s)) (htracks : s.document.tracks ≠ [])
    (hnumbers : ∀ x ∈ s.document.numbers, ReadsBack x) (t₀ : Session Float) :
    ∃ t, t₀.importText s.exportText = (.ok t.document.notes.length, t) ∧
      t.document.bpm = s.document.bpm ∧
      t.document.tracks = s.document.tracks ∧
      ((t.document.notes.map Note.content).Perm (s.document.notes.map Note.content) ↔
        ∀ n ∈ s.document.notes, (s.document.tracks.map (·.id)).count n.track = 1) := by
  obtain ⟨t, hopen, hbpm, hlist, hnotes⟩ := reopens himport htracks hnumbers t₀
  refine ⟨t, hopen, hbpm, hlist, ?_⟩
  rw [hnotes]
  exact Piece.regrouped_perm_iff

/-- A text of two tracks, one of which borrows from the clip of the other. -/
def song : String :=
  "\x7b\"bpm\": 96.5,
    \"tracks\": [[\"lead\", \"Lead\", \"instrument\"], [\"hat\", \"HiHat\", \"percussion\"]],
    \"clips\": \x7b\"riff\": [[null, 60, 0.5, 1.25, 80], [null, 42, 3, 0.25, 100, \"hat\"]]\x7d,
    \"arrangement\": [[\"A\", 0, \"lead\", \"riff\"], [\"A\", 1, \"lead\", \"riff\"]]\x7d"

/-- The piece that the text writes. -/
def songPiece : Piece Float where
  bpm := 96.5
  tracks := [⟨"lead", "Lead", .instrument, false⟩, ⟨"hat", "HiHat", .percussion, false⟩]
  clips := [("riff", [⟨none, 60, 0.5, 1.25, 80, none⟩, ⟨none, 42, 3.0, 0.25, 100, some "hat"⟩])]
  arrangement := [⟨"A", 0, "lead", "riff"⟩, ⟨"A", 1, "lead", "riff"⟩]

set_option maxRecDepth 10000 in
theorem ofText_song : Piece.ofText song = .ok songPiece := by
  refine ofText_of_read (d := ⟨some (some songPiece.bpm), some (some songPiece.tracks),
    some (some songPiece.clips), some (some songPiece.arrangement)⟩) rfl ?_ rfl
  decide +kernel

/-- The session that has taken over the text. -/
def songSession : Session Float := (fresh.applyPiece songPiece).2

theorem song_reopened :
    fresh.importText song = (.ok 4, songSession) ∧
    ∃ t, fresh.importText songSession.exportText = (.ok 4, t) ∧
      (t.document.notes.map Note.content).Perm (songSession.document.notes.map Note.content) := by
  have himport : fresh.importText song = (.ok 4, songSession) := by
    rw [importText, ofText_song]
    rfl
  obtain ⟨hnumbers, honce⟩ : (∀ x ∈ songSession.document.numbers, ReadsBack x) ∧
      ∀ n ∈ songSession.document.notes,
        (songSession.document.tracks.map (·.id)).count n.track = 1 := by
    decide +kernel
  obtain ⟨t, hopen, -, -, hperm⟩ := reopened_perm_iff himport (by decide) hnumbers fresh
  have hsame := hperm.2 honce
  have hlength := hsame.length_eq
  rw [List.length_map, List.length_map] at hlength
  rw [hlength] at hopen
  exact ⟨himport, t, hopen, hsame⟩

/-- A text of a note whose track is listed twice. -/
def twins : String :=
  "\x7b\"bpm\": 120,
    \"tracks\": [[\"t\", \"Lead\", \"instrument\"], [\"t\", \"Pad\", \"instrument\"]],
    \"clips\": \x7b\"c\": [\x7b\"note\": 60, \"start\": 0, \"duration\": 1, \"velocity\": 90\x7d]\x7d,
    \"arrangement\": [\x7b\"track_id\": \"t\", \"clip_id\": \"c\"\x7d]\x7d"

/-- The piece that the text writes. -/
def twinPiece : Piece Float where
  bpm := 120.0
  tracks := [⟨"t", "Lead", .instrument, false⟩, ⟨"t", "Pad", .instrument, false⟩]
  clips := [("c", [⟨none, 60, 0.0, 1.0, 90, none⟩])]
  arrangement := [⟨"", 0, "t", "c"⟩]

set_option maxRecDepth 10000 in
theorem ofText_twins : Piece.ofText twins = .ok twinPiece := by
  refine ofText_of_read (d := ⟨some (some twinPiece.bpm), some (some twinPiece.tracks),
    some (some twinPiece.clips), some (some twinPiece.arrangement)⟩) rfl ?_ rfl
  decide +kernel

/-- The session that has taken over the text. -/
def twinSession : Session Float := (fresh.applyPiece twinPiece).2

/-- The one note of a track that is listed twice is opened as two. -/
theorem twins_doubled :
    fresh.importText twins = (.ok 1, twinSession) ∧
    twinSession.document.tracks ≠ [] ∧
    (∀ n ∈ twinSession.document.notes, n.track ∈ twinSession.document.tracks.map (·.id)) ∧
    (∀ x ∈ twinSession.document.numbers, ReadsBack x) ∧
    ∃ t, fresh.importText twinSession.exportText = (.ok 2, t) ∧
      ¬ (t.document.notes.map Note.content).Perm
        (twinSession.document.notes.map Note.content) := by
  have himport : fresh.importText twins = (.ok 1, twinSession) := by
    rw [importText, ofText_twins]
    rfl
  have htracks : twinSession.document.tracks ≠ [] := by decide
  obtain ⟨hlisted, hnumbers⟩ : (∀ n ∈ twinSession.document.notes,
        n.track ∈ twinSession.document.tracks.map (·.id)) ∧
      ∀ x ∈ twinSession.document.numbers, ReadsBack x := by
    decide +kernel
  obtain ⟨t, hopen, -, -, hnotes⟩ := reopens himport htracks hnumbers fresh
  have hlength : t.document.notes.length = 2 := by
    rw [← List.length_map (f := Note.content), hnotes]
    decide +kernel
  rw [hlength] at hopen
  refine ⟨himport, htracks, hlisted, hnumbers, t, hopen, fun hperm => ?_⟩
  have hsame := hperm.length_eq
  rw [List.length_map, List.length_map, hlength] at hsame
  have hone : twinSession.document.notes.length = 1 := rfl
  exact absurd (hsame.trans hone) (by decide)

end Session

end NoteRoll
