import NoteRoll.Proofs.PieceText
import NoteRoll.Proofs.WholeNumbers

/-!
# Every piece can be stored

`Legible.ofText_toText` asks two things of numbers: that the decimals are read back,
and that the whole numbers are in the range of the arithmetic. For the arithmetic of
the program the second one holds of every whole number that a field can have, so that
only the first is left to ask.

Of strings nothing is asked anywhere. A name of a clip may be empty, hold quotes or
control characters, or differ from another one in nothing but an accent.
-/

namespace NoteRoll

open Json.Decoder (ReadsBack)

/-- The numbers of a piece that are stored as decimals. -/
def Piece.numbers {α : Type} (p : Piece α) : List α :=
  p.bpm :: p.clips.flatMap fun c => c.2.flatMap fun n => [n.start, n.duration]

/-- The fields have the types that they are stored with: pitches and velocities are whole
numbers of 64 signed bits, bars are natural numbers of 32, and clips are a map by name. -/
structure Piece.Typed {α : Type} (p : Piece α) : Prop where
  pitches : ∀ c ∈ p.clips, ∀ n ∈ c.2,
    -9223372036854775808 ≤ n.pitch ∧ n.pitch ≤ 9223372036854775807
  velocities : ∀ c ∈ p.clips, ∀ n ∈ c.2,
    -9223372036854775808 ≤ n.velocity ∧ n.velocity ≤ 9223372036854775807
  bars : ∀ a ∈ p.arrangement, a.startBar ≤ 4294967295
  names : p.clips.Pairwise fun c d => c.1 < d.1

theorem isFinite_of_readsBack {x : Float} (h : ReadsBack x) : x.isFinite = true := by
  obtain ⟨d, l, hshortest, -⟩ := h
  by_cases hx : x.isFinite = true
  · exact hx
  · simp only [NumberText.shortest, if_neg hx] at hshortest
    cases hshortest

namespace Piece

theorem isWide_of_bounds {n : Int} (hlow : -9223372036854775808 ≤ n)
    (hhigh : n ≤ 9223372036854775807) : IsWide Float n :=
  ⟨hlow, hhigh, Json.Literal.value?_integer (by omega)⟩

theorem Typed.legible {p : Piece Float} (h : p.Typed) (hnumbers : ∀ x ∈ p.numbers, ReadsBack x) :
    p.Legible where
  tempo := hnumbers _ List.mem_cons_self
  notes c hc n hn := by
    have hreads : ∀ x ∈ [n.start, n.duration], ReadsBack x := by
      intro x hx
      refine hnumbers x (List.mem_cons_of_mem _ ?_)
      exact List.mem_flatMap.2 ⟨c, hc, List.mem_flatMap.2 ⟨n, hn, hx⟩⟩
    obtain ⟨hpitchLow, hpitchHigh⟩ := h.pitches c hc n hn
    obtain ⟨hvelocityLow, hvelocityHigh⟩ := h.velocities c hc n hn
    exact ⟨isWide_of_bounds hpitchLow hpitchHigh, hreads _ List.mem_cons_self,
      hreads _ (List.mem_cons_of_mem _ List.mem_cons_self),
      isWide_of_bounds hvelocityLow hvelocityHigh⟩
  sorted := h.names
  placements a ha := by
    have hbar := h.bars a ha
    exact ⟨hbar, Json.Literal.value?_integer (by omega)⟩

/-- Whatever piece is written, with a positive tempo and with numbers whose decimals are
read back, its text is read as that very piece. -/
theorem stored_reads_back {p : Piece Float} (h : p.Typed) (hpositive : 0 < p.bpm)
    (hnumbers : ∀ x ∈ p.numbers, ReadsBack x) : ofText p.toText = .ok p := by
  have hfinite : p.bpm.isFinite = true :=
    isFinite_of_readsBack (hnumbers _ List.mem_cons_self)
  have htempo : Tempo.isValid p.bpm = true := by
    rw [Tempo.isValid, Bool.and_eq_true]
    exact ⟨hfinite, decide_eq_true hpositive⟩
  exact (h.legible hnumbers).ofText_toText htempo

/-- A piece whose strings need escapes, whose numbers lie at the ends of their ranges, and
that leaves out what may be left out. -/
def contrary : Piece Float where
  bpm := 0.1
  tracks := [⟨"", "say \"hi\" \\ bye", .percussion, true⟩, ⟨"ä\u0001\n", "𝄞", .instrument, false⟩]
  clips := [("", []),
    ("\"\t", [⟨none, -9223372036854775808, -0.0, 1e300, 9223372036854775807, none⟩,
      ⟨some "", 60, 2.5e-9, 0.25, -1, some "\x7b\x7d"⟩])]
  arrangement := [⟨"", 4294967295, "nowhere", "\"\t"⟩]

theorem contrary_read_back :
    contrary.Typed ∧ 0 < contrary.bpm ∧ (∀ x ∈ contrary.numbers, ReadsBack x) ∧
      ofText contrary.toText = .ok contrary := by
  have htyped : contrary.Typed := ⟨by decide, by decide, by decide, by decide⟩
  have hpositive : 0 < contrary.bpm := by decide +kernel
  have hnumbers : ∀ x ∈ contrary.numbers, ReadsBack x := by decide +kernel
  exact ⟨htyped, hpositive, hnumbers, stored_reads_back htyped hpositive hnumbers⟩

end Piece

end NoteRoll
