import Mathlib
import NoteRoll.Decimal.Shortest
import NoteRoll.Proofs.Packing

/-!
# Notes in binary numbers

The program lays a packed piece out by adding the beats of no bars to each onset. In exact
arithmetic nothing is to be said about that. For binary numbers of 64 bits it is a matter of
their bits: what is taken apart into sign, exponent and mantissa and put together again is
the same pattern. The one number that zero would change is the negative zero, which is no
onset of a note.
-/

namespace NoteRoll

/-! ## Adding zero -/

namespace Binary64

open Float.Model (Format UnpackedFloat)

theorem unpack_zero : (0.0 : Float).toModel.unpack = .zero .positive := by
  have hbits : (0.0 : Float).toModel.toBits = 0 := by decide +kernel
  rw [Float.Model.unpack, hbits]
  rfl

theorem pack_unpack (m : Float.Model) : Float.Model.pack m.unpack = m := by
  rw [Float.Model.pack, Float.Model.mk.injEq]
  exact congrArg UInt64.ofBitVec (UnpackedFloat.pack_unpack_of_valid m.valid)

theorem add_zero_of_ne {x : UnpackedFloat} (h : ∀ s, x ≠ .zero s) :
    UnpackedFloat.add Format.binary64 x (.zero .positive) = x := by
  cases x with
  | infinity s => rfl
  | notANumber => rfl
  | finite => rfl
  | zero s => exact absurd rfl (h s)

/-- Adding zero leaves a positive number as it is. -/
theorem add_zero_of_pos {x : Float} (h : 0.0 < x) : x + 0.0 = x := by
  obtain ⟨m⟩ := x
  have hlt : (0.0 : Float).toModel.unpack.lt m.unpack = true := of_decide_eq_true h
  rw [unpack_zero] at hlt
  have hne : ∀ s, m.unpack ≠ .zero s := by
    intro s hs
    rw [hs] at hlt
    cases s <;> cases hlt
  have hadd : m.add (0.0 : Float).toModel = m := by
    rw [Float.Model.add, unpack_zero, add_zero_of_ne hne, pack_unpack]
  exact congrArg Float.ofModel hadd

end Binary64

/-! ## The fields of a note -/

namespace Note

theorem intoRange_intoRange {lo hi : Nat} (h : lo ≤ hi) (n : Int) :
    intoRange lo hi (intoRange lo hi n) = intoRange lo hi n := by
  simp only [intoRange]
  omega

/-- An onset of a note: finite, and not negative. -/
def IsOnset (x : Float) : Prop := x = 0.0 ∨ (x.isFinite = true ∧ 0.0 < x)

section Fields

variable (id : NoteId) (pitch : Int) (start duration : Float) (velocity : Int) (track : TrackId)

theorem ofFields_onset : IsOnset (ofFields id pitch start duration velocity track).start := by
  show IsOnset (if start.isFinite then Scalar.larger start (0.0 : Float) else (0.0 : Float))
  split
  · next hfinite =>
      rw [Scalar.larger]
      split
      · next hpos => exact .inr ⟨hfinite, hpos⟩
      · exact .inl (if_pos (by decide +kernel))
  · exact .inl rfl

variable {start} in
theorem ofFields_start (h : IsOnset start) :
    (ofFields id pitch start duration velocity track).start = start := by
  show (if start.isFinite then Scalar.larger start (0.0 : Float) else (0.0 : Float)) = start
  rcases h with rfl | ⟨hfinite, hpos⟩
  · decide +kernel
  · rw [if_pos hfinite, Scalar.larger]
    exact if_pos hpos

end Fields

/-- At the first bar an onset stays as it is. -/
theorem IsOnset.add_bars {x : Float} (h : IsOnset x) :
    x + Scalar.ofNat 0 * Piece.beatsPerBar = x := by
  have hbeats : (Scalar.ofNat 0 * Piece.beatsPerBar : Float) = 0.0 := by decide +kernel
  rw [hbeats]
  rcases h with rfl | ⟨-, hpos⟩
  · decide +kernel
  · exact Binary64.add_zero_of_pos hpos

/-- Fields that were brought into their ranges stay as they are. -/
theorem ofFields_settled (id : NoteId) (pitch : Int) (start duration : Float) (velocity : Int)
    (track : TrackId) : (ofFields id pitch start duration velocity track).Settled := by
  have honset := ofFields_onset id pitch start duration velocity track
  rw [Settled, honset.add_bars]
  have hstart := ofFields_start id pitch duration velocity track honset
  refine (Note.mk.injEq ..).mpr ⟨rfl, ?_, hstart, ?_, ?_, rfl⟩
  · exact intoRange_intoRange (by decide) pitch
  · simp only [ofFields]
    split
    · rfl
    · exact ite_self _
  · exact intoRange_intoRange (by decide) velocity

theorem ofFields_pitch_le (id : NoteId) (pitch : Int) (start duration : Float) (velocity : Int)
    (track : TrackId) : (ofFields id pitch start duration velocity track).pitch ≤ Pitch.highest :=
  (intoRange_mem (Nat.zero_le _) pitch).2

theorem ofFields_velocity_le (id : NoteId) (pitch : Int) (start duration : Float) (velocity : Int)
    (track : TrackId) : (ofFields id pitch start duration velocity track).velocity ≤ maxVelocity :=
  (intoRange_mem (by decide) velocity).2

end Note

end NoteRoll
