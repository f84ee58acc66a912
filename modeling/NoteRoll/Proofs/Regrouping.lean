import NoteRoll.Proofs.Binary64

/-!
# Notes regrouped by track

What is packed and laid out again is the notes track by track, in the order of the
tracks and under each in the order they had. Along the way the clips are put into the
order of their names, which is another one; it is the arrangement that keeps the order
of the tracks, and each of its placements finds its own clip because no two tracks
have clips of one name.

Each note passes through `Note.ofFields` once more. A note whose fields are in range
comes out of it as it went in, but for the zero that has a sign: it is in range, and
comes back as the zero that has none.

The new identities are those of any supply that is asked once for each note in the
order in which they come out. The supply of the program, which counts up, is one.
-/

namespace NoteRoll

variable {α : Type}

/-! ## Numbers that are not below zero -/

namespace Binary64

open Float.Model (UnpackedFloat)

theorem eq_of_unpack_eq {x y : Float} (h : x.toModel.unpack = y.toModel.unpack) : x = y := by
  obtain ⟨m⟩ := x
  obtain ⟨n⟩ := y
  have hmodel : m = n := by rw [← pack_unpack m, ← pack_unpack n, h]
  rw [hmodel]

theorem unpack_negative_zero : (-0.0 : Float).toModel.unpack = .zero .negative := by
  have hbits : (-0.0 : Float).toModel.toBits = 0x8000000000000000 := by decide +kernel
  rw [Float.Model.unpack, hbits]
  rfl

theorem zero_lt_of_le {x : UnpackedFloat} (h : (UnpackedFloat.zero .positive).le x = true)
    (hne : ∀ s, x ≠ .zero s) : (UnpackedFloat.zero .positive).lt x = true := by
  cases x with
  | zero sign => exact absurd rfl (hne sign)
  | notANumber => cases h
  | infinity sign =>
      cases sign with
      | positive => rfl
      | negative => cases h
  | finite sign mantissa exponent hpos =>
      cases sign with
      | positive => rfl
      | negative => cases h

/-- A number that is not below zero is one of the two zeros, or above them. -/
theorem zero_or_pos {x : Float} (h : 0.0 ≤ x) : x = 0.0 ∨ x = -0.0 ∨ 0.0 < x := by
  have hle : (0.0 : Float).toModel.unpack.le x.toModel.unpack = true := of_decide_eq_true h
  by_cases hzero : ∃ sign, x.toModel.unpack = .zero sign
  · obtain ⟨sign, hsign⟩ := hzero
    cases sign with
    | positive => exact .inl (eq_of_unpack_eq (hsign.trans unpack_zero.symm))
    | negative => exact .inr (.inl (eq_of_unpack_eq (hsign.trans unpack_negative_zero.symm)))
  · have hlt : (0.0 : Float).toModel.unpack.lt x.toModel.unpack = true := by
      rw [unpack_zero] at hle ⊢
      exact zero_lt_of_le hle fun sign hsign => hzero ⟨sign, hsign⟩
    exact .inr (.inr (decide_eq_true hlt))

end Binary64

/-! ## Notes that come back -/

namespace Note

/-- A note whose fields are in range, in binary numbers. -/
structure Proper (n : Note Float) : Prop where
  pitch : n.pitch ≤ 127
  start : n.start.isFinite = true ∧ 0.0 ≤ n.start
  duration : n.duration.isFinite = true ∧ 0.0 < n.duration
  heard : 1 ≤ n.velocity
  loudest : n.velocity ≤ 127

instance instDecidableProper (n : Note Float) : Decidable n.Proper :=
  decidable_of_iff
    (n.pitch ≤ 127 ∧ (n.start.isFinite = true ∧ 0.0 ≤ n.start) ∧
      (n.duration.isFinite = true ∧ 0.0 < n.duration) ∧ 1 ≤ n.velocity ∧ n.velocity ≤ 127)
    ⟨fun ⟨hpitch, hstart, hduration, hheard, hloudest⟩ =>
      ⟨hpitch, hstart, hduration, hheard, hloudest⟩,
      fun h => ⟨h.pitch, h.start, h.duration, h.heard, h.loudest⟩⟩

/-- The notes agree in all but their identities, with the two zeros for one. -/
structure SameAs (m n : Note Float) : Prop where
  pitch : m.pitch = n.pitch
  start : m.start = n.start ∨ (n.start = -0.0 ∧ m.start = 0.0)
  duration : m.duration = n.duration
  velocity : m.velocity = n.velocity
  track : m.track = n.track

theorem start_relaid {n : Note Float} (h : n.Proper) :
    n.relaid.start = n.start ∨ (n.start = -0.0 ∧ n.relaid.start = 0.0) := by
  have honset (hstart : IsOnset n.start) : n.relaid.start = n.start := by
    rw [relaid, hstart.add_bars]
    exact ofFields_start _ _ _ _ _ hstart
  obtain ⟨hfinite, hnonneg⟩ := h.start
  rcases Binary64.zero_or_pos hnonneg with hzero | hnegative | hpos
  · exact .inl (honset (.inl hzero))
  · -- It loses its sign when the beats of no bars are added, before it is brought into range.
    refine .inr ⟨hnegative, ?_⟩
    have hsum : (-0.0 : Float) + Scalar.ofNat 0 * Piece.beatsPerBar = 0.0 := by decide +kernel
    rw [relaid, hnegative, hsum]
    exact ofFields_start _ _ _ _ _ (.inl rfl)
  · exact .inl (honset (.inr ⟨hfinite, hpos⟩))

theorem sameAs_relaid {n : Note Float} (h : n.Proper) (id : NoteId) :
    SameAs { n.relaid with id } n where
  pitch := intoRange_of_mem (Nat.zero_le _) h.pitch
  start := start_relaid h
  duration := by
    have hlasts : (n.duration.isFinite && decide (0.0 < n.duration)) = true := by
      rw [h.duration.1, decide_eq_true h.duration.2]
      rfl
    exact if_pos hlasts
  velocity := intoRange_of_mem h.heard h.loudest
  track := rfl

end Note

namespace Piece

/-! ## A supply of identities -/

section Supply

variable {σ : Type} (alloc : σ → NoteId × σ)

/-- The identities that a supply gives out, one after the other. -/
def draws : Nat → σ → List NoteId
  | 0, _ => []
  | count + 1, s => (alloc s).1 :: draws count (alloc s).2

variable [Scalar α]

/-- Notes of clips laid out, each with the next identity of the supply. -/
def layOut : List (Placement × ClipNote α) → σ → List (Note α)
  | [], _ => []
  | c :: cs, s => unpackNote c.1 (alloc s).1 c.2 :: layOut cs (alloc s).2

/-- The flat list of notes, with identities from a supply. -/
def flattenBy (p : Piece α) (s : σ) : List (Note α) := layOut alloc p.laidOut s

theorem ids_layOut (cs : List (Placement × ClipNote α)) (s : σ) :
    (layOut alloc cs s).map (·.id) = draws alloc cs.length s := by
  induction cs generalizing s with
  | nil => rfl
  | cons c cs ih =>
      rw [layOut, List.map_cons, ih]
      rfl

/-- The program's own supply counts up. -/
theorem flatten_eq_flattenBy (p : Piece α) (firstId : NoteId) :
    p.flatten firstId = p.flattenBy (fun id => (id, id + 1)) firstId := by
  have hcount : ∀ (cs : List (Placement × ClipNote α)) (first : NoteId),
      (cs.mapIdx fun i c => unpackNote c.1 (first + i) c.2) =
        layOut (fun id => (id, id + 1)) cs first := by
    intro cs
    induction cs with
    | nil => exact fun _ => List.mapIdx_nil
    | cons c cs ih =>
        intro first
        rw [List.mapIdx_cons, layOut, ← ih (first + 1)]
        simp only [Nat.add_zero, Nat.add_assoc, Nat.add_comm 1]
  exact hcount p.laidOut firstId

end Supply

/-! ## The order of the notes -/

section Layout

variable {notes : List (Note α)} {tracks : List Track}

/-- The notes track by track, in the order of the tracks. -/
def regrouped (notes : List (Note α)) (tracks : List Track) : List (Note α) :=
  tracks.flatMap fun t => notes.filter fun n => n.track == t.id

/-- The tracks that have notes. -/
def played (notes : List (Note α)) (tracks : List Track) : List Track :=
  tracks.filter fun t => notes.any fun n => n.track == t.id

theorem laidOut_pack_regrouped (bpm : α) :
    (pack notes bpm tracks).laidOut = (regrouped notes tracks).map fun n =>
      (⟨packedPart, 0, n.track, clipName n.track⟩, packNote n) := by
  rw [laidOut_pack, flatMap_occupied _ fun _ => rfl, regrouped, List.map_flatMap]
  refine List.flatMap_congr fun t _ => ?_
  rw [packTrack, List.map_map]
  refine List.map_congr_left fun n hn => ?_
  have htrack : n.track = t.id := eq_of_beq (List.mem_filter.1 hn).2
  rw [htrack]
  rfl

theorem filter_append_filter_perm {β : Type} {p q : β → Bool} {l : List β}
    (hapart : ∀ b ∈ l, q b = true → p b = false) :
    (l.filter p ++ l.filter q).Perm (l.filter fun b => p b || q b) := by
  have hparts := List.filter_append_perm p (l.filter fun b => p b || q b)
  have hp : (l.filter fun b => p b || q b).filter p = l.filter p := by
    rw [List.filter_filter]
    refine List.filter_congr fun b _ => ?_
    cases p b <;> rfl
  have hq : ((l.filter fun b => p b || q b).filter fun b => !p b) = l.filter q := by
    rw [List.filter_filter]
    refine List.filter_congr fun b hb => ?_
    cases hqb : q b with
    | false => cases p b <;> rfl
    | true => rw [hapart b hb hqb]; rfl
  rwa [hp, hq] at hparts

/-- Nothing is doubled, and nothing lost but the notes of tracks that are not listed. -/
theorem regrouped_perm (hdistinct : (tracks.map (·.id)).Nodup) :
    (regrouped notes tracks).Perm (notes.filter fun n => tracks.any fun t => n.track == t.id) := by
  induction tracks with
  | nil => simp [regrouped]
  | cons t ts ih =>
      obtain ⟨hnew, hrest⟩ := List.nodup_cons.1 hdistinct
      have hapart : ∀ n ∈ notes, (ts.any fun t => n.track == t.id) = true →
          (n.track == t.id) = false := by
        intro n _ hlisted
        obtain ⟨u, hu, htrack⟩ := List.any_eq_true.1 hlisted
        refine beq_false_of_ne fun heq => hnew ?_
        exact List.mem_map.2 ⟨u, hu, (eq_of_beq htrack).symm.trans heq⟩
      rw [regrouped, List.flatMap_cons]
      exact ((ih hrest).append_left _).trans (filter_append_filter_perm hapart)

theorem occupied_eq (notes : List (Note α)) (tracks : List Track) :
    occupied notes tracks = (played notes tracks).map fun t => (t.id, packTrack notes t.id) := by
  rw [occupied, List.filter_map, played]
  refine congrArg _ (List.filter_congr fun t _ => ?_)
  rw [Bool.eq_iff_iff]
  simp [packTrack]

/-! ## The clips -/

theorem putClip_perm {name : String} (clip : List (ClipNote α))
    {cs : List (String × List (ClipNote α))} (h : ∀ c ∈ cs, c.1 ≠ name) :
    (putClip name clip cs).Perm ((name, clip) :: cs) := by
  induction cs with
  | nil => exact .refl _
  | cons c cs ih =>
      obtain ⟨key, other⟩ := c
      rw [List.forall_mem_cons] at h
      rw [putClip]
      split
      · exact .refl _
      · rw [if_neg h.1]
        exact ((ih h.2).cons _).trans (.swap ..)

/-- Clips of distinct tracks all go in, in some order. -/
theorem foldl_putClip_perm {l : List (TrackId × List (ClipNote α))}
    (hdistinct : (l.map (·.1)).Nodup) {cs : List (String × List (ClipNote α))}
    (hnew : ∀ d ∈ l, ∀ c ∈ cs, c.1 ≠ clipName d.1) :
    (l.foldl (fun clips c => putClip (clipName c.1) c.2 clips) cs).Perm
      (l.map (fun c => (clipName c.1, c.2)) ++ cs) := by
  induction l generalizing cs with
  | nil => exact .refl _
  | cons d l ih =>
      obtain ⟨hfirst, hrest⟩ := List.nodup_cons.1 hdistinct
      rw [List.forall_mem_cons] at hnew
      have hput := putClip_perm d.2 hnew.1
      refine (ih hrest fun e he c hc => ?_).trans ?_
      · rcases mem_putClip hc with rfl | hc
        · -- All names begin alike, so it is the tracks in which they differ.
          intro hname
          have htrack : d.1 = e.1 := (String.append_right_inj "clip_").1 hname
          exact hfirst (List.mem_map.2 ⟨e, he, htrack.symm⟩)
        · exact hnew.2 e he c hc
      · exact (hput.append_left _).trans List.perm_middle

theorem clips_perm (bpm : α) (hdistinct : (tracks.map (·.id)).Nodup) :
    (pack notes bpm tracks).clips.Perm
      ((played notes tracks).map fun t => (clipName t.id, packTrack notes t.id)) := by
  have hids : ((occupied notes tracks).map (·.1)).Nodup := by
    rw [occupied_eq, List.map_map]
    exact hdistinct.sublist (List.Sublist.map _ List.filter_sublist)
  have hnone : ∀ d ∈ occupied notes tracks, ∀ c ∈ ([] : List (String × List (ClipNote α))),
      c.1 ≠ clipName d.1 := fun d _ c hc => absurd hc List.not_mem_nil
  have hperm := foldl_putClip_perm hids hnone
  rw [List.append_nil, occupied_eq, List.map_map] at hperm
  rw [pack, occupied_eq]
  exact hperm

end Layout

/-! ## Packed and laid out -/

section Regrouped

variable {notes : List (Note Float)} {tracks : List Track} {σ : Type}

theorem layOut_sameAs (alloc : σ → NoteId × σ) {kept : List (Note Float)}
    (hproper : ∀ n ∈ kept, n.Proper) (s : σ) :
    List.Forall₂ Note.SameAs
      (layOut alloc (kept.map fun n =>
        ((⟨packedPart, 0, n.track, clipName n.track⟩ : Placement), packNote n)) s) kept := by
  induction kept generalizing s with
  | nil => exact .nil
  | cons n kept ih =>
      rw [List.forall_mem_cons] at hproper
      exact .cons (Note.sameAs_relaid hproper.1 (alloc s).1) (ih hproper.2 (alloc s).2)

/-- Notes in range are packed, on tracks that are listed once, and laid out again with
identities from any supply. They come back track by track, in the order of the tracks
and under each in the order they had, with all their fields, and with the identities
in the order in which they are given out. What is missing are the notes of tracks
that are not listed. The tracks that have notes have a placement each, in their order,
and a clip each under a name of its own, which holds the notes of the track. -/
theorem flattenBy_pack (hproper : ∀ n ∈ notes, n.Proper) (hdistinct : (tracks.map (·.id)).Nodup)
    (bpm : Float) (alloc : σ → NoteId × σ) (s : σ) :
    let p := pack notes bpm tracks
    List.Forall₂ Note.SameAs (p.flattenBy alloc s) (regrouped notes tracks) ∧
    (p.flattenBy alloc s).map (·.id) = draws alloc (regrouped notes tracks).length s ∧
    (∀ firstId, p.flatten firstId = p.flattenBy (fun id => (id, id + 1)) firstId) ∧
    (regrouped notes tracks).Perm
      (notes.filter fun n => tracks.any fun t => n.track == t.id) ∧
    p.arrangement =
      (played notes tracks).map (fun t => ⟨packedPart, 0, t.id, clipName t.id⟩) ∧
    p.clips.Perm ((played notes tracks).map fun t => (clipName t.id, packTrack notes t.id)) ∧
    (p.clips.map (·.1)).Nodup := by
  intro p
  have hkept : ∀ n ∈ regrouped notes tracks, n.Proper := by
    intro n hn
    obtain ⟨t, -, hn⟩ := List.mem_flatMap.1 hn
    exact hproper n (List.mem_filter.1 hn).1
  refine ⟨?_, ?_, p.flatten_eq_flattenBy, regrouped_perm hdistinct, ?_,
    clips_perm bpm hdistinct, ?_⟩
  · rw [flattenBy, laidOut_pack_regrouped]
    exact layOut_sameAs alloc hkept s
  · rw [flattenBy, ids_layOut, laidOut_pack_regrouped, List.length_map]
  · show (occupied notes tracks).map _ = _
    rw [occupied_eq, List.map_map]
    rfl
  · exact List.pairwise_map.2 ((pack_sorted bpm).imp fun hlt => ne_of_lt hlt)

/-- Notes of two tracks in turn, one of a track that is not listed, and one that begins
at the zero that has a sign. -/
def jam : List (Note Float) :=
  [⟨7, 60, 2.5, 1.0, 90, "t_piano"⟩, ⟨3, 36, -0.0, 0.5, 127, "t_bass"⟩,
    ⟨9, 64, 0.0, 4.0, 1, "t_piano"⟩, ⟨4, 42, 1.0, 0.25, 64, "t_gone"⟩,
    ⟨5, 40, 0.75, 0.5, 80, "t_bass"⟩]

/-- Their tracks, not in the order of the names, and one without notes. -/
def stage : List Track :=
  [⟨"t_piano", "Piano", .instrument, false⟩, ⟨"t_kick", "Kick", .percussion, false⟩,
    ⟨"t_bass", "Bass", .instrument, true⟩]

theorem jam_regrouped :
    let p := pack jam 96.5 stage
    let flat := p.flattenBy (fun s : Nat => (3 * s, s + 1)) 5
    (∀ n ∈ jam, n.Proper) ∧ (stage.map (·.id)).Nodup ∧
    List.Forall₂ Note.SameAs flat (regrouped jam stage) ∧
    (regrouped jam stage).map (·.id) = [7, 9, 3, 5] ∧ flat.map (·.id) = [15, 18, 21, 24] ∧
    p.arrangement.map (·.clip) = ["clip_t_piano", "clip_t_bass"] ∧
    p.clips.map (·.1) = ["clip_t_bass", "clip_t_piano"] ∧
    p.clips.Perm ((played jam stage).map fun t => (clipName t.id, packTrack jam t.id)) := by
  have hproper : ∀ n ∈ jam, n.Proper := by decide +kernel
  have hdistinct : (stage.map (·.id)).Nodup := by decide
  have hregrouped := flattenBy_pack hproper hdistinct 96.5 (fun s : Nat => (3 * s, s + 1)) 5
  dsimp only at hregrouped ⊢
  obtain ⟨hsame, hids, -, -, harrangement, hclips, -⟩ := hregrouped
  refine ⟨hproper, hdistinct, hsame, by decide, hids, ?_, by decide +kernel, hclips⟩
  rw [harrangement]
  decide +kernel

end Regrouped

end Piece

end NoteRoll
