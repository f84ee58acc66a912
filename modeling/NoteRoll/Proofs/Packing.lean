import Mathlib.Data.String.Basic
import Mathlib.Data.List.Perm.Basic
import NoteRoll.Piece

/-!
# Packing and laying out

Laying out a packed piece goes through the tracks in the order of their list, and under each
of them through the notes that it has. A note therefore comes back as often as its track is
listed. Nothing is lost and nothing doubled exactly where each track that has notes is listed
once.

What a note is made of is looked at apart from its identity, which laying out gives anew. Being
put at the first bar brings the fields of a note into their ranges, and a note whose fields are
in their ranges already comes back as it is.
-/

namespace NoteRoll

variable {α : Type}

/-- What a note is made of, apart from its identity. -/
structure NoteContent (α : Type) where
  pitch : Nat
  start : α
  duration : α
  velocity : Nat
  track : TrackId
  deriving DecidableEq

/-- The note without its identity. -/
def Note.content (n : Note α) : NoteContent α :=
  ⟨n.pitch, n.start, n.duration, n.velocity, n.track⟩

/-- The note that comes back when it is packed and laid out. -/
def Note.relaid [Scalar α] (n : Note α) : Note α :=
  Note.ofFields n.id n.pitch (n.start + Scalar.ofNat 0 * Piece.beatsPerBar) n.duration n.velocity
    n.track

/-- The fields of a note stay as they are at the first bar. -/
def Note.Settled [Scalar α] (n : Note α) : Prop :=
  Note.ofFields n.id n.pitch (n.start + Scalar.ofNat 0 * Piece.beatsPerBar) n.duration n.velocity
    n.track = n

namespace Piece

/-! ## Clips under their names -/

section Clips

variable {name key : String} {clip : List (ClipNote α)} {cs : List (String × List (ClipNote α))}

theorem lookup_putClip_self : (putClip name clip cs).lookup name = some clip := by
  induction cs with
  | nil => rw [putClip, List.lookup_cons_self]
  | cons e cs ih =>
      obtain ⟨k, c⟩ := e
      rw [putClip]
      split
      · rw [List.lookup_cons_self]
      · split
        · rw [List.lookup_cons_self]
        · next hne =>
            rw [List.lookup_cons, beq_false_of_ne (Ne.symm hne)]
            exact ih

theorem lookup_putClip_of_ne (h : key ≠ name) :
    (putClip name clip cs).lookup key = cs.lookup key := by
  have hkey : (key == name) = false := beq_false_of_ne h
  induction cs with
  | nil => rw [putClip, List.lookup_cons, hkey]
  | cons e cs ih =>
      obtain ⟨k, c⟩ := e
      rw [putClip]
      split
      · rw [List.lookup_cons, hkey]
      · split
        · next heq => rw [heq, List.lookup_cons, hkey, List.lookup_cons, hkey]
        · rw [List.lookup_cons, List.lookup_cons, ih]

theorem mem_putClip {e : String × List (ClipNote α)} (h : e ∈ putClip name clip cs) :
    e = (name, clip) ∨ e ∈ cs := by
  induction cs with
  | nil => exact .inl (List.mem_singleton.1 h)
  | cons d cs ih =>
      obtain ⟨k, c⟩ := d
      rw [putClip] at h
      split at h
      · exact List.mem_cons.1 h
      · split at h
        · exact (List.mem_cons.1 h).imp_right (List.mem_cons_of_mem _)
        · rcases List.mem_cons.1 h with rfl | h
          · exact .inr List.mem_cons_self
          · exact (ih h).imp_right (List.mem_cons_of_mem _)

/-- Clips stay sorted by their names. -/
theorem putClip_sorted (h : cs.Pairwise fun c d => c.1 < d.1) :
    (putClip name clip cs).Pairwise fun c d => c.1 < d.1 := by
  induction cs with
  | nil => exact List.pairwise_singleton _ _
  | cons e cs ih =>
      obtain ⟨k, c⟩ := e
      rw [List.pairwise_cons] at h
      rw [putClip]
      split
      · next hlt =>
          refine List.pairwise_cons.2 ⟨fun d hd => ?_, List.pairwise_cons.2 h⟩
          rcases List.mem_cons.1 hd with rfl | hd
          · exact hlt
          · exact String.lt_trans hlt (h.1 d hd)
      · next hnot =>
          split
          · next heq => exact List.pairwise_cons.2 ⟨fun d hd => heq ▸ h.1 d hd, h.2⟩
          · next hne =>
              have hlt : k < name := lt_of_le_of_ne (not_lt.1 hnot) hne
              refine List.pairwise_cons.2 ⟨fun d hd => ?_, ih h.2⟩
              rcases mem_putClip hd with rfl | hd
              · exact hlt
              · exact h.1 d hd

end Clips

/-- A clip that is put under a track's name, and is the only one put there, is found. -/
theorem lookup_clips {l : List (TrackId × List (ClipNote α))}
    {cs : List (String × List (ClipNote α))} {track : TrackId} {clip : List (ClipNote α)}
    (hsame : ∀ c ∈ l, c.1 = track → c.2 = clip)
    (h : cs.lookup (clipName track) = some clip ∨ ∃ c ∈ l, c.1 = track) :
    (l.foldl (fun clips c => putClip (clipName c.1) c.2 clips) cs).lookup (clipName track) =
      some clip := by
  induction l generalizing cs with
  | nil => exact h.resolve_right fun ⟨_, hc, _⟩ => absurd hc List.not_mem_nil
  | cons c l ih =>
      rw [List.forall_mem_cons] at hsame
      refine ih hsame.2 ?_
      by_cases htrack : c.1 = track
      · rw [← hsame.1 htrack, ← htrack]
        exact .inl lookup_putClip_self
      · have hname : clipName track ≠ clipName c.1 := fun heq =>
          htrack ((String.append_right_inj "clip_").1 heq).symm
        refine h.imp (lookup_putClip_of_ne hname).trans fun ⟨d, hd, hdt⟩ => ⟨d, ?_, hdt⟩
        rcases List.mem_cons.1 hd with rfl | hd
        · exact absurd hdt htrack
        · exact hd

/-! ## The layout of a packed piece -/

section Layout

variable {notes : List (Note α)} {tracks : List Track}

theorem clip_of_mem_occupied {c : TrackId × List (ClipNote α)} (h : c ∈ occupied notes tracks) :
    c.2 = packTrack notes c.1 := by
  obtain ⟨h, -⟩ := List.mem_filter.1 h
  obtain ⟨t, -, rfl⟩ := List.mem_map.1 h
  rfl

theorem pack_sorted (bpm : α) :
    (pack notes bpm tracks).clips.Pairwise fun c d => c.1 < d.1 :=
  List.foldlRecOn _ _ List.Pairwise.nil fun _ h _ _ => putClip_sorted h

/-- The clips of a packed piece hold nothing but packed notes. -/
theorem of_mem_pack {bpm : α} {c : String × List (ClipNote α)}
    (hc : c ∈ (pack notes bpm tracks).clips) : ∀ m ∈ c.2, ∃ n ∈ notes, packNote n = m := by
  have hclips : ∀ c ∈ (pack notes bpm tracks).clips, ∃ track, c.2 = packTrack notes track := by
    refine List.foldlRecOn (motive := fun cs => ∀ c : String × List (ClipNote α), c ∈ cs →
      ∃ track, c.2 = packTrack notes track) _ _ (fun c hc => absurd hc List.not_mem_nil)
      fun cs hcs d hd c hc => ?_
    rcases mem_putClip hc with rfl | hc
    · exact ⟨d.1, clip_of_mem_occupied hd⟩
    · exact hcs c hc
  obtain ⟨track, hclip⟩ := hclips c hc
  intro m hm
  rw [hclip] at hm
  obtain ⟨n, hn, rfl⟩ := List.mem_map.1 hm
  exact ⟨n, (List.mem_filter.1 hn).1, rfl⟩

/-- The clip of each placement of a packed piece is there. -/
theorem laidOut_pack (bpm : α) :
    (pack notes bpm tracks).laidOut = (occupied notes tracks).flatMap fun c =>
      c.2.map fun n => (⟨packedPart, 0, c.1, clipName c.1⟩, n) := by
  rw [laidOut, pack, List.flatMap_map]
  refine List.flatMap_congr fun c hc => ?_
  have hsame : ∀ d ∈ occupied notes tracks, d.1 = c.1 → d.2 = c.2 := by
    intro d hd hdc
    rw [clip_of_mem_occupied hd, hdc, clip_of_mem_occupied hc]
  rw [lookup_clips hsame (.inr ⟨c, hc, rfl⟩), Option.getD_some]

theorem flatMap_occupied {β : Type} (f : TrackId × List (ClipNote α) → List β)
    (h : ∀ track, f (track, []) = []) :
    (occupied notes tracks).flatMap f = tracks.flatMap fun t => f (t.id, packTrack notes t.id) := by
  rw [occupied, ← List.flatMap_map (fun t : Track => (t.id, packTrack notes t.id)) f]
  induction tracks.map (fun t : Track => (t.id, packTrack notes t.id)) with
  | nil => rfl
  | cons c l ih =>
      obtain ⟨track, clip⟩ := c
      cases clip with
      | nil => rw [List.filter_cons_of_neg Bool.false_ne_true, List.flatMap_cons, h, ih, List.nil_append]
      | cons n clip => rw [List.filter_cons_of_pos rfl, List.flatMap_cons, List.flatMap_cons, ih]

variable [Scalar α]

theorem contents_flatten (p : Piece α) (firstId : NoteId) :
    (p.flatten firstId).map Note.content =
      p.laidOut.map fun c => (unpackNote c.1 0 c.2).content := by
  have hlaid : p.laidOut.zipIdx.map Prod.fst = p.laidOut := List.zipIdx_map_fst 0 p.laidOut
  rw [flatten, List.mapIdx_eq_zipIdx_map, List.map_map]
  conv_rhs => rw [← hlaid, List.map_map]
  rfl

/-- The notes of a packed piece that is laid out, track by track. -/
theorem contents_pack_relaid (notes : List (Note α)) (bpm : α) (tracks : List Track)
    (firstId : NoteId) :
    ((pack notes bpm tracks).flatten firstId).map Note.content =
      tracks.flatMap fun t =>
        ((notes.map Note.relaid).filter fun n => n.track == t.id).map Note.content := by
  rw [contents_flatten, laidOut_pack, List.map_flatMap, flatMap_occupied _ fun track => rfl]
  refine List.flatMap_congr fun t _ => ?_
  rw [packTrack, List.map_map, List.map_map, List.filter_map, List.map_map]
  rfl

theorem contents_pack (hsettled : ∀ n ∈ notes, n.Settled) (bpm : α) (tracks : List Track)
    (firstId : NoteId) :
    ((pack notes bpm tracks).flatten firstId).map Note.content =
      tracks.flatMap fun t => (notes.filter fun n => n.track == t.id).map Note.content := by
  have hsame : notes.map Note.relaid = notes :=
    (List.map_congr_left hsettled).trans (List.map_id notes)
  rw [contents_pack_relaid, hsame]

end Layout

/-! ## How often a note comes back -/

section Counting

variable {notes : List (Note α)} {tracks : List Track}

open Classical in
/-- A note comes back as often as its track is listed. -/
theorem count_regrouped (notes : List (Note α)) (tracks : List Track)
    (c : NoteContent α) :
    (tracks.flatMap fun t => (notes.filter fun n => n.track == t.id).map Note.content).count c =
      (tracks.map (·.id)).count c.track * (notes.map Note.content).count c := by
  induction tracks with
  | nil => rw [List.flatMap_nil, List.count_nil, List.map_nil, List.count_nil, Nat.zero_mul]
  | cons t ts ih =>
      have htrack : (notes.filter fun n => n.track == t.id).map Note.content =
          (notes.map Note.content).filter fun c => c.track == t.id := by
        rw [List.filter_map]
        rfl
      rw [List.flatMap_cons, List.count_append, ih, htrack, List.map_cons, List.count_cons,
        Nat.add_mul, Nat.add_comm]
      congr 1
      by_cases hc : c.track = t.id
      · rw [List.count_filter (p := fun c : NoteContent α => c.track == t.id) (beq_iff_eq.2 hc),
          if_pos (beq_iff_eq.2 hc.symm), Nat.one_mul]
      · rw [if_neg fun h => hc (beq_iff_eq.1 h).symm, Nat.zero_mul, List.count_eq_zero]
        exact fun h => hc (beq_iff_eq.1 (List.mem_filter.1 h).2)

/-- Grouped by the tracks the notes are the same ones exactly if each of their tracks is
listed once. -/
theorem regrouped_perm_iff :
    (tracks.flatMap fun t => (notes.filter fun n => n.track == t.id).map Note.content).Perm
        (notes.map Note.content) ↔
      ∀ n ∈ notes, (tracks.map (·.id)).count n.track = 1 := by
  classical
  simp only [List.perm_iff_count, count_regrouped]
  constructor
  · intro h n hn
    have hpos : 0 < (notes.map Note.content).count n.content :=
      List.count_pos_iff.2 (List.mem_map_of_mem hn)
    have htimes := h n.content
    exact Nat.eq_of_mul_eq_mul_right hpos (htimes.trans (Nat.one_mul _).symm)
  · intro h c
    by_cases hc : c ∈ notes.map Note.content
    · obtain ⟨n, hn, rfl⟩ := List.mem_map.1 hc
      rw [show n.content.track = n.track from rfl, h n hn, Nat.one_mul]
    · rw [List.count_eq_zero.2 hc, Nat.mul_zero]

end Counting

end Piece

end NoteRoll
