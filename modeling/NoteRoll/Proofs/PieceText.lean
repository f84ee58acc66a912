import NoteRoll.Piece.Format
import NoteRoll.Proofs.JsonDecoders

/-!
# A stored piece is read back

The decoders of tracks, notes, placements and pieces read what the piece is stored as. Nothing is
asked of the strings. Of the numbers it is asked that their texts are read back, of the clips
that they are sorted by name, and of the tempo that it is a usable one, which is what a text is
rejected for.
-/

namespace NoteRoll

namespace Piece

open Json Json.Decoder

variable {α : Type} [NumberText α]

/-! ## Numbers of a piece -/

/-- A whole number of 64 signed bits that is in the range of the numbers. -/
structure IsWide (α : Type) [NumberText α] (n : Int) : Prop where
  low : -9223372036854775808 ≤ n
  high : n ≤ 9223372036854775807
  inRange : ((Literal.integer n).value? : Option α).isSome = true

/-- A clip note whose numbers are read back. -/
structure LegibleNote (n : ClipNote α) : Prop where
  pitch : IsWide α n.pitch
  start : ReadsBack n.start
  duration : ReadsBack n.duration
  velocity : IsWide α n.velocity

/-- A placement whose bar has 32 bits. -/
structure LegiblePlacement (α : Type) [NumberText α] (p : Placement) : Prop where
  high : p.startBar ≤ 4294967295
  inRange : ((Literal.integer p.startBar).value? : Option α).isSome = true

/-- A piece that can be stored without loss. -/
structure Legible (p : Piece α) : Prop where
  tempo : ReadsBack p.bpm
  notes : ∀ c ∈ p.clips, ∀ n ∈ c.2, LegibleNote n
  sorted : p.clips.Pairwise fun c d => c.1 < d.1
  placements : ∀ a ∈ p.arrangement, LegiblePlacement α a

/-! ## The parts of a piece -/

theorem reads_track (t : Track) : (trackDecoder α).Reads (trackJson t) t := by
  have hkind : (Decoder.choice α [("instrument", TrackKind.instrument),
      ("percussion", TrackKind.percussion)]).Reads (.text (kindWord t.kind)) t.kind := by
    refine Reads.choice ?_
    cases t.kind <;> rfl
  refine reads_record
    { id := some t.id, name := some t.name, kind := some t.kind,
      muted := if t.muted then some true else none } ?_ ?_
  · refine Fills.append { id := some t.id, name := some t.name, kind := some t.kind } ?_ ?_
    · exact .set rfl rfl (Reads.text t.id) (.set rfl rfl (Reads.text t.name)
        (.set rfl rfl hkind (.nil _)))
    · split
      · exact .set rfl rfl (Reads.flag true) (.nil _)
      · exact .nil _
  · obtain ⟨id, name, kind, muted⟩ := t
    cases muted <;> rfl

theorem reads_wide {n : Int} (h : IsWide α n) : (wide α).Reads (ofInt n) n :=
  reads_integer h.low h.high (Int.le_refl _) (by decide) h.inRange

theorem reads_clipNote {n : ClipNote α} (h : LegibleNote n) :
    clipNoteDecoder.Reads (clipNoteJson n) n := by
  refine reads_record
    { id := n.id.map some, pitch := some n.pitch, start := some n.start,
      duration := some n.duration, velocity := some n.velocity, track := n.track.map some } ?_ ?_
  · refine Fills.append
      { id := n.id.map some, pitch := some n.pitch, start := some n.start,
        duration := some n.duration, velocity := some n.velocity } ?_ ?_
    · refine Fills.append { id := n.id.map some } ?_ ?_
      · cases n.id with
        | none => exact .nil _
        | some id => exact .set rfl rfl (Reads.optional (Reads.text id)) (.nil _)
      · exact .set rfl rfl (reads_wide h.pitch)
          (.set rfl rfl (reads_number h.start)
            (.set rfl rfl (reads_number h.duration)
              (.set rfl rfl (reads_wide h.velocity) (.nil _))))
    · cases n.track with
      | none => exact .nil _
      | some track => exact .set rfl rfl (Reads.optional (Reads.text track)) (.nil _)
  · obtain ⟨id, pitch, start, duration, velocity, track⟩ := n
    cases id <;> cases track <;> rfl

theorem reads_placement {p : Placement} (h : LegiblePlacement α p) :
    (placementDecoder α).Reads (placementJson p) p := by
  have hbar : (Decoder.integer α 0 4294967295).Reads (ofInt p.startBar) p.startBar :=
    reads_integer (Int.natCast_nonneg _) (Int.ofNat_le.2 h.high) (by decide) (by decide) h.inRange
  refine reads_record
    { part := some p.part, startBar := some p.startBar, track := some p.track,
      clip := some p.clip } ?_ ?_
  · exact .set rfl rfl (Reads.text p.part) (.set rfl rfl hbar
      (.set rfl rfl (Reads.text p.track) (.set rfl rfl (Reads.text p.clip)
        (.nil _))))
  · rfl

/-! ## The whole piece -/

theorem reads_piece {p : Piece α} (h : Legible p) :
    draftDecoder.Reads p.toJson
      { bpm := some (some p.bpm), tracks := some (some p.tracks), clips := some (some p.clips),
        arrangement := some (some p.arrangement) } := by
  have htracks : (Decoder.list α (trackDecoder α)).Reads (.list (p.tracks.map trackJson)) p.tracks :=
    reads_list (List.forall₂_map_left_iff.2 (List.forall₂_same.2 fun t _ => reads_track t))
  have hclips : (Decoder.table α (Decoder.list α clipNoteDecoder)).Reads
      (.table (p.clips.map fun c => (c.1, .list (c.2.map clipNoteJson)))) p.clips := by
    refine reads_table (List.forall₂_map_left_iff.2 (List.forall₂_same.2 fun c hc => ⟨rfl, ?_⟩))
      h.sorted
    exact reads_list (List.forall₂_map_left_iff.2 (List.forall₂_same.2 fun n hn =>
      reads_clipNote (h.notes c hc n hn)))
  have hplacements : (Decoder.list α (placementDecoder α)).Reads
      (.list (p.arrangement.map placementJson)) p.arrangement :=
    reads_list (List.forall₂_map_left_iff.2 (List.forall₂_same.2 fun a ha =>
      reads_placement (h.placements a ha)))
  refine reads_record _ ?_ rfl
  exact .set rfl rfl (reads_number h.tempo).optional
    (.set rfl rfl htracks.optional (.set rfl rfl hclips.optional
      (.set rfl rfl hplacements.optional (.nil _))))

/-- A legible piece with a usable tempo is read back from its text. -/
theorem Legible.ofText_toText [Scalar α] {p : Piece α} (h : Legible p)
    (htempo : Tempo.isValid p.bpm = true) : ofText p.toText = .ok p := by
  rw [ofText, toText, (reads_piece h).ofText_pretty]
  simp only [ofReading, ofDraft, Option.join_some, htempo, Bool.not_true, Bool.false_eq_true,
    if_false, Option.getD_some]

end Piece

end NoteRoll
