import Mathlib.Data.List.Induction
import NoteRoll.Proofs.Ordering
import NoteRoll.Proofs.Pointer

/-!
# Which stem is grabbed

The velocity lane grabs the visible note whose centre is nearest to the pointer, if that is
within the tolerance, and of several equally near ones the last. The search goes through the
notes once and keeps the best note so far. `Picked` says without a search which note that is:
it stands at a place of the list such that no note is nearer and each note behind it is
farther.

A distance may be no number, where a note begins or the pointer is at an infinite beat. Such
a distance is not within the tolerance, so the notes that are searched all have distances
that compare.
-/

namespace NoteRoll.VelocityEditor

variable {α : Type} [Scalar α] {beat : α}

/-- The last of the notes of a list that are nearest to a beat: none before it is nearer, and
all behind it are farther. -/
def Picked (beat : α) (notes : List (Note α)) (n : Note α) : Prop :=
  ∃ before after, notes = before ++ n :: after ∧
    (∀ m ∈ before, ¬ distance beat m < distance beat n) ∧
    ∀ m ∈ after, distance beat n < distance beat m

/-- Whether a note can be grabbed at a beat: it is visible and within the tolerance. -/
def reaches (s : Session α) (beat : α) (n : Note α) : Bool :=
  !s.isHidden n.track && decide (distance beat n < hitTolerance)

theorem reaches_iff {s : Session α} {n : Note α} :
    reaches s beat n = true ↔ s.isHidden n.track = false ∧ distance beat n < hitTolerance := by
  rw [reaches, Bool.and_eq_true, Bool.not_eq_true', decide_eq_true_iff]

theorem hitTest?_eq (s : Session α) (beat : α) :
    hitTest? s beat = (s.document.notes.filter (reaches s beat)).foldl (nearer beat) none := by
  rw [hitTest?, Session.visibleNotes, List.filter_filter]
  exact congrArg _ (List.filter_congr fun _ _ => Bool.and_comm _ _)

/-! ## The search -/

theorem foldl_nearer_of_farther {after : List (Note α)} {n : Note α}
    (h : ∀ m ∈ after, distance beat n < distance beat m) :
    after.foldl (nearer beat) (some n) = some n := by
  induction after with
  | nil => rfl
  | cons m rest ih =>
      obtain ⟨hm, hrest⟩ := List.forall_mem_cons.1 h
      rw [List.foldl_cons, nearer_some, if_pos hm]
      exact ih hrest

theorem Picked.foldl_nearer {notes : List (Note α)} {n : Note α} (h : Picked beat notes n) :
    notes.foldl (nearer beat) none = some n := by
  obtain ⟨before, after, rfl, hbefore, hafter⟩ := h
  have hstep : nearer beat (before.foldl (nearer beat) none) n = some n := by
    cases hb : before.foldl (nearer beat) none with
    | none => rfl
    | some b =>
        have hmem := (foldl_nearer_mem hb).resolve_right (Option.some_ne_none b ·.symm)
        rw [nearer_some, if_neg (hbefore b hmem)]
  rw [List.foldl_append, List.foldl_cons, hstep]
  exact foldl_nearer_of_farther hafter

variable [Scalar.Ordered α]

open Scalar.Ordered

theorem Picked.not_nearer {notes : List (Note α)} {n : Note α} (h : Picked beat notes n) :
    ∀ m ∈ notes, ¬ distance beat m < distance beat n := by
  obtain ⟨before, after, rfl, hbefore, hafter⟩ := h
  simp only [List.forall_mem_append, List.forall_mem_cons]
  exact ⟨hbefore, fun h => lt_asymm h h, fun m hm => lt_asymm (hafter m hm)⟩

/-- Where distances compare, the search never ends without a note. -/
theorem exists_picked {notes : List (Note α)} (hne : notes ≠ [])
    (hnumbers : ∀ m ∈ notes, (distance beat m == distance beat m) = true) :
    ∃ n, Picked beat notes n := by
  induction notes using List.reverseRecOn with
  | nil => exact absurd rfl hne
  | append_singleton notes m ih =>
      by_cases hnil : notes = []
      · exact ⟨m, [], [], by rw [hnil], by simp, by simp⟩
      · obtain ⟨b, hb⟩ := ih hnil fun k hk => hnumbers k (List.mem_append_left _ hk)
        have hnot := hb.not_nearer
        obtain ⟨before, after, hnotes, hbefore, hafter⟩ := hb
        by_cases hbm : distance beat b < distance beat m
        · refine ⟨b, before, after ++ [m], by rw [hnotes]; simp, hbefore, ?_⟩
          exact List.forall_mem_append.2 ⟨hafter, List.forall_mem_singleton.2 hbm⟩
        · refine ⟨m, notes, [], rfl, fun k hk hkm => ?_, by simp⟩
          -- what is nearer than the new note is nearer than the best one, which is not farther
          have hmem : b ∈ notes ++ [m] := by rw [hnotes]; simp
          exact hnot k hk (lt_of_lt_of_not_lt hkm (hnumbers b hmem) hbm)

theorem foldl_nearer_eq_some_iff {notes : List (Note α)} {n : Note α}
    (hnumbers : ∀ m ∈ notes, (distance beat m == distance beat m) = true) :
    notes.foldl (nearer beat) none = some n ↔ Picked beat notes n := by
  refine ⟨fun h => ?_, Picked.foldl_nearer⟩
  have hne : notes ≠ [] := by rintro rfl; cases h
  obtain ⟨n', hn'⟩ := exists_picked hne hnumbers
  rwa [← Option.some.inj (h.symm.trans hn'.foldl_nearer)] at hn'

/-! ## The stem of a session -/

theorem number_of_reaches {s : Session α} {m : Note α} (h : reaches s beat m = true) :
    (distance beat m == distance beat m) = true :=
  (numbers_of_lt (reaches_iff.1 h).2).1

theorem hitTest?_eq_some_iff {s : Session α} {n : Note α} :
    hitTest? s beat = some n ↔ Picked beat (s.document.notes.filter (reaches s beat)) n := by
  rw [hitTest?_eq]
  exact foldl_nearer_eq_some_iff fun _ hm => number_of_reaches (List.mem_filter.1 hm).2

theorem isSome_hitTest?_iff (s : Session α) (beat : α) :
    (hitTest? s beat).isSome = true ↔ ∃ m ∈ s.document.notes, reaches s beat m = true := by
  rw [Option.isSome_iff_exists]
  simp only [hitTest?_eq_some_iff]
  constructor
  · rintro ⟨n, before, after, hsplit, -⟩
    have hmem : n ∈ s.document.notes.filter (reaches s beat) := by rw [hsplit]; simp
    exact ⟨n, List.mem_filter.1 hmem⟩
  · rintro ⟨m, hm⟩
    exact exists_picked (List.ne_nil_of_mem (List.mem_filter.2 hm))
      fun _ hk => number_of_reaches (List.mem_filter.1 hk).2

/-- A note that is not farther than one that can be grabbed can be grabbed, if it is visible. -/
theorem reaches_of_le {s : Session α} {m n : Note α} (hn : reaches s beat n = true)
    (hshown : s.isHidden m.track = false) (hle : distance beat m ≤ distance beat n) :
    reaches s beat m = true :=
  reaches_iff.2 ⟨hshown, lt_of_le_of_lt hle (reaches_iff.1 hn).2⟩

/-- The last of the nearest notes within the tolerance is the last of the nearest ones that
are visible. -/
theorem picked_filter_iff {s : Session α} {n : Note α} :
    Picked beat (s.document.notes.filter (reaches s beat)) n ↔
      ∃ before after, s.document.notes = before ++ n :: after ∧ reaches s beat n = true ∧
        (∀ m ∈ s.document.notes, s.isHidden m.track = false →
          ¬ distance beat m < distance beat n) ∧
        ∀ m ∈ after, s.isHidden m.track = false → ¬ distance beat m ≤ distance beat n := by
  constructor
  · intro h
    have hnot := h.not_nearer
    obtain ⟨before', after', hsplit, -, hafter⟩ := h
    obtain ⟨before, rest, hnotes, -, hrest⟩ := List.filter_eq_append_iff.1 hsplit
    obtain ⟨skipped, after, rfl, -, hn, rfl⟩ := List.filter_eq_cons_iff.1 hrest
    refine ⟨before ++ skipped, after, by rw [hnotes, List.append_assoc], hn, ?_, ?_⟩
    · intro m hm hshown hlt
      have hle := le_of_not_lt (numbers_of_lt hlt).1 (numbers_of_lt hlt).2 (lt_asymm hlt)
      exact hnot m (List.mem_filter.2 ⟨hm, reaches_of_le hn hshown hle⟩) hlt
    · intro m hm hshown hle
      have hlt := hafter m (List.mem_filter.2 ⟨hm, reaches_of_le hn hshown hle⟩)
      exact lt_asymm (lt_of_lt_of_le hlt hle) (lt_of_lt_of_le hlt hle)
  · rintro ⟨before, after, hnotes, hn, hnot, hafter⟩
    refine ⟨before.filter (reaches s beat), after.filter (reaches s beat), ?_, ?_, ?_⟩
    · rw [hnotes, List.filter_append, List.filter_cons_of_pos hn]
    · intro m hm
      obtain ⟨hm, hreach⟩ := List.mem_filter.1 hm
      exact hnot m (hnotes ▸ List.mem_append_left _ hm) (reaches_iff.1 hreach).1
    · intro m hm
      obtain ⟨hm, hreach⟩ := List.mem_filter.1 hm
      have hfarther := hafter m hm (reaches_iff.1 hreach).1
      exact not_not.1 fun hlt =>
        hfarther (le_of_not_lt (number_of_reaches hreach) (number_of_reaches hn) hlt)

/-- A stem is grabbed just if the centre of some visible note is within the tolerance. It is
the stem of the note `n` just if `n` stands somewhere in the document, is visible and within
the tolerance, no visible note is nearer, and no visible note behind it is as near. -/
theorem last_nearest_grabbed (s : Session α) (beat : α) :
    ((hitTest? s beat).isSome = true ↔ ∃ m ∈ s.document.notes,
      s.isHidden m.track = false ∧ distance beat m < hitTolerance) ∧
    ∀ n, hitTest? s beat = some n ↔ ∃ before after, s.document.notes = before ++ n :: after ∧
      (s.isHidden n.track = false ∧ distance beat n < hitTolerance) ∧
      (∀ m ∈ s.document.notes, s.isHidden m.track = false →
        ¬ distance beat m < distance beat n) ∧
      ∀ m ∈ after, s.isHidden m.track = false → ¬ distance beat m ≤ distance beat n := by
  simp only [← reaches_iff]
  exact ⟨isSome_hitTest?_iff s beat, fun n => hitTest?_eq_some_iff.trans picked_filter_iff⟩

/-- Four notes with one centre but for the second; the last is on a hidden track. -/
def bunch : Session Float :=
  { Session.start { Document.empty Track.defaults 120.0 with
      notes := [⟨1, 60, 0.0, 1.0, 90, "t_piano"⟩, ⟨2, 62, 0.25, 1.0, 90, "t_bass"⟩,
        ⟨3, 64, 0.25, 0.5, 90, "t_bass"⟩, ⟨4, 65, 0.25, 0.5, 90, "t_kick"⟩] } with
    hidden := ["t_kick"] }

theorem bunch_grabbed :
    (hitTest? bunch 0.375).isSome = true ∧
    hitTest? bunch 0.375 = some ⟨3, 64, 0.25, 0.5, 90, "t_bass"⟩ := by
  obtain ⟨hsome, hpick⟩ := last_nearest_grabbed bunch 0.375
  refine ⟨hsome.2 ⟨⟨1, 60, 0.0, 1.0, 90, "t_piano"⟩, List.mem_cons_self, by decide +kernel⟩,
    (hpick _).2 ⟨[⟨1, 60, 0.0, 1.0, 90, "t_piano"⟩, ⟨2, 62, 0.25, 1.0, 90, "t_bass"⟩],
      [⟨4, 65, 0.25, 0.5, 90, "t_kick"⟩], rfl, by decide +kernel, ?_, ?_⟩⟩
  · decide +kernel
  · decide +kernel

end NoteRoll.VelocityEditor
