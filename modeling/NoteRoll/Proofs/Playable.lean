import Mathlib.Algebra.Order.Field.Rat
import Mathlib.Tactic.Linarith
import NoteRoll.Proofs.NoteProperties

/-!
# Pieces that can be played through

A playback ends when its beat has passed the latest end of a note. For that to
mean that every note has begun, notes have to last and time has to go forward:
lengths are positive, and so is the tempo. Both hold of every state that editing
leads to, since notes come in through `Note.ofFields` and tempos through
`Document.setBpm`, and everything that changes them later keeps them so.
-/

namespace NoteRoll

/-! ## Exact arithmetic -/

theorem Scalar.larger_eq_max (x y : Rat) : Scalar.larger x y = max x y := by
  rw [Scalar.larger]
  split
  · next h => exact (max_eq_left h.le).symm
  · next h => rw [if_pos (beq_self_eq_true y), max_eq_right (not_lt.1 h)]

/-- Every note lasts for some time. -/
def Note.Lasts (n : Note Rat) : Prop := 0 < n.duration

theorem Session.snapUnit_pos (s : Session Rat) : 0 < s.snapUnit := by
  rw [snapUnit]
  split
  · next h => exact h
  · exact (by decide +kernel : (0 : Rat) < Note.minDuration)

/-- Lengths stay positive, whatever the grid. -/
theorem Note.kept_lasts : Note.Kept Note.Lasts fun _ => True where
  ofFields id pitch start duration velocity track := by
    show 0 < if Scalar.isFinite duration && decide (0 < duration) then duration else minDuration
    split
    · next h => exact of_decide_eq_true (Bool.and_eq_true_iff.1 h).2
    · exact (by decide +kernel : (0 : Rat) < minDuration)
  asLoud _ hn := hn
  asLong hm _ := hm
  atHeight _ _ hn := hn
  stretched s length _ := by
    show 0 < Scalar.larger length s.snapUnit
    rw [Scalar.larger_eq_max]
    exact lt_max_of_lt_right s.snapUnit_pos
  moved _ _ _ hn := hn
  scrolled _ _ := trivial
  centered _ _ _ := trivial

/-! ## Tempos -/

section Tempos

variable {α : Type} [Scalar α]

theorem Document.setBpm_valid {d : Document α} (h : Tempo.isValid d.bpm = true) (bpm : α) :
    Tempo.isValid (d.setBpm bpm).2.bpm = true := by
  rw [setBpm]
  split
  · next hvalid => exact hvalid
  · exact h

theorem Session.applyPiece_valid {s : Session α} (h : Tempo.isValid s.document.bpm = true)
    (p : Piece α) : Tempo.isValid (s.applyPiece p).2.document.bpm = true := by
  have hset := Document.setBpm_valid h p.bpm
  rw [applyPiece, takeTracks]
  split <;> exact hset

theorem Session.applyResult_valid {ε : Type} {s : Session α}
    (h : Tempo.isValid s.document.bpm = true) (r : Except ε (Piece α)) :
    Tempo.isValid (s.applyResult r).2.document.bpm = true := by
  cases r with
  | error e => exact h
  | ok p => exact Session.applyPiece_valid h p

namespace Studio

variable {σ : Type} [NumberText α] [SoundOutput σ α]

/-- A valid tempo stays one. -/
theorem next_valid {s : Studio σ α} (h : Tempo.isValid s.session.document.bpm = true)
    (e : Event α) : Tempo.isValid (s.next e).session.document.bpm = true := by
  have hsame {t : Session α} (ht : t.document.bpm = s.session.document.bpm) :
      Tempo.isValid t.document.bpm = true := by rw [ht]; exact h
  by_cases he : e.isAboutNotes = true
  · exact hsame (s.next_editsNotes he).bpm
  · cases e with
    | applyPiece piece => exact Session.applyPiece_valid h piece
    | importText text => exact Session.applyResult_valid h _
    | generate service prompt =>
        have hidle : Tempo.isValid
            ({ s.session with remote := .idle } : Session α).document.bpm = true := h
        exact Session.applyResult_valid hidle _
    | setActiveTrack id => exact hsame (s.session.setsTracks_setActiveTrack id).bpm
    | cycleActiveTrack => exact hsame s.session.setsTracks_cycleActiveTrack.bpm
    | toggleMute id => exact hsame (s.session.setsTracks_toggleMute id).bpm
    | toggleHidden id => exact hsame (s.session.setsTracks_toggleHidden id).bpm
    | setBpm bpm => exact Document.setBpm_valid h _
    | _ => exact absurd rfl he

end Studio

end Tempos

/-! ## States to play -/

/-- A document to begin with: its notes are told apart and last, and its tempo is
one. -/
structure Document.Playable (d : Document Rat) : Prop where
  numbered : d.Numbered
  lasts : ∀ n ∈ d.notes, n.Lasts
  tempo : Tempo.isValid d.bpm = true

/-- An empty document is one, whatever tempo it is asked for. -/
theorem Document.empty_playable (tracks : List Track) (bpm : Rat) :
    (Document.empty tracks bpm).Playable := by
  refine ⟨numbered_of_nil rfl, fun n hn => absurd hn List.not_mem_nil, ?_⟩
  show Tempo.isValid (if Tempo.isValid bpm then bpm else Tempo.standard) = true
  split
  · next hvalid => exact hvalid
  · decide +kernel

namespace Studio

variable {σ : Type}

/-- Notes that are committed from outside are distinct, none of them claims to be
the one that is being drawn, and all of them last. -/
def AdmitsPlayable (s : Studio σ Rat) (e : Event Rat) : Prop :=
  s.Admits e ∧ s.Brings Note.Lasts e

variable [NumberText Rat] [SoundOutput σ Rat] {s : Studio σ Rat}

/-- Every state that use leads to can be played through. -/
theorem Grown.playable (h : s.Grown Document.Playable AdmitsPlayable) :
    s.session.document.Playable := by
  have hnumbered : s.Numbered :=
    (h.mono (fun _ hd => hd.numbered) fun _ _ he => he.1).numbered
  have hevery : s.Every Note.Lasts fun _ => True :=
    h.invariant (fun _ _ hd hfresh => hfresh.every hd.lasts trivial)
      fun _ _ he hs => hs.next Note.kept_lasts he.2
  have htempo : Tempo.isValid s.session.document.bpm = true :=
    h.invariant (P := fun s => Tempo.isValid s.session.document.bpm = true)
      (fun _ _ hd hfresh => hfresh.session ▸ hd.tempo) fun _ e _ hs => next_valid hs e
  have hsession := hnumbered.session
  exact ⟨⟨hsession.distinct _ (.inl rfl), fun id hid => hsession.below id ⟨_, .inl rfl, hid⟩⟩,
    hevery.session.document, htempo⟩

end Studio

/-! ## How long a piece is -/

theorem foldl_larger_ge (notes : List (Note Rat)) (e : Rat) :
    e ≤ notes.foldl (fun e n => Scalar.larger e n.stop) e ∧
      ∀ n ∈ notes, n.stop ≤ notes.foldl (fun e n => Scalar.larger e n.stop) e := by
  induction notes generalizing e with
  | nil => exact ⟨le_refl e, fun n hn => absurd hn List.not_mem_nil⟩
  | cons m notes ih =>
      obtain ⟨hgrows, hrest⟩ := ih (Scalar.larger e m.stop)
      rw [Scalar.larger_eq_max] at hgrows hrest
      rw [List.foldl_cons, Scalar.larger_eq_max]
      refine ⟨(le_max_left _ _).trans hgrows, fun n hn => ?_⟩
      rcases List.mem_cons.1 hn with rfl | hn
      · exact (le_max_right _ _).trans hgrows
      · exact hrest n hn

/-- Every note has ended by the end of the piece, and so has begun. -/
theorem Document.Playable.start_le_endBeat {d : Document Rat} (h : d.Playable) {n : Note Rat}
    (hn : n ∈ d.notes) : n.start ≤ d.endBeat := by
  have hstop : n.start + n.duration ≤ d.endBeat := (foldl_larger_ge d.notes 0).2 n hn
  have hlasts : 0 < n.duration := h.lasts n hn
  linarith

/-! ## Timings that were checked -/

namespace Timing

/-- The timings that playback is given. -/
inductive Validated {α : Type} [Scalar α] : Timing α → Prop where
  | standard : Validated .standard
  | ofTicks {tick lookahead : Duration} {t : Timing α}
      (h : Timing.ofTicks tick lookahead = .ok t) : Validated t
  | withEndMargin {t : Timing α} (beats : α) (h : Validated t) : Validated (t.withEndMargin beats)

theorem Validated.endMargin_nonneg {t : Timing Rat} (h : t.Validated) : 0 ≤ t.endMargin := by
  have hdefault : (0 : Rat) ≤ defaultEndMargin := by decide +kernel
  induction h with
  | standard => exact hdefault
  | ofTicks h =>
      rw [Timing.ofTicks] at h
      split at h
      · cases h
      · split at h
        · cases h
        · cases h
          exact hdefault
  | withEndMargin beats _ _ =>
      show 0 ≤ Scalar.larger beats 0
      rw [Scalar.larger_eq_max]
      exact le_max_right _ _

end Timing

theorem Duration.seconds_nonneg (d : Duration) : (0 : Rat) ≤ d.seconds := by
  have hwhole : (0 : Rat) ≤ ((d.nanos / 1000000000 : Nat) : Int) := by positivity
  have hrest : (0 : Rat) ≤ ((d.nanos % 1000000000 : Nat) : Int) := by positivity
  have hden : (0 : Rat) ≤ (OfScientific.ofScientific 10000000000 true 1 : Rat) := by norm_num
  have hfraction := div_nonneg hrest hden
  exact add_nonneg hwhole hfraction

end NoteRoll
