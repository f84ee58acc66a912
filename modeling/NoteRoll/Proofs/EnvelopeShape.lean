import Mathlib.Algebra.Order.Field.Rat
import Mathlib.Tactic.Linarith
import NoteRoll.Audio.Voice
import NoteRoll.Proofs.Playable

/-!
# The shape of an envelope

Any of the three times of an envelope may be zero, and then the part of the curve that
would be divided by it is skipped: a rise or a fall of no length holds no time, and what
fades in no time is gone. So every quotient that is met is one by a positive number.
`amplitudeWithin?` takes that at its word. It has a check at each division and asks for
itself where the fade needs the level it starts from; two calls answer everything.

What the curve looks like comes from two facts. The level of a held note is never
outside zero and one, whatever part of the curve the time falls into. From the release
on there is only a line down from the level reached then, cut off at zero; the part that
the release fell into is no longer looked at.
-/

namespace NoteRoll

namespace Envelope

/-- Lengths that are lengths, and a level that a note can be held at. -/
structure Proper (e : Envelope Rat) : Prop where
  attack : 0 ≤ e.attack
  decay : 0 ≤ e.decay
  release : 0 ≤ e.release
  sustain : 0 ≤ e.sustain
  full : e.sustain ≤ 1

variable {e : Envelope Rat} {t u hold : Rat} {held : Option Rat}

/-! ## The level of a held note -/

theorem level_of_lt_zero (h : t < 0) : e.level t = 0 := if_pos h

theorem level_bounds (hdecay : 0 ≤ e.decay) (hsustain : 0 ≤ e.sustain) (hfull : e.sustain ≤ 1)
    (t : Rat) : 0 ≤ e.level t ∧ e.level t ≤ 1 := by
  rw [level]
  split
  · exact ⟨le_refl 0, zero_le_one⟩
  · next hbegun =>
      split
      · next hrising =>
          have hattack : 0 ≤ e.attack := (not_lt.1 hbegun).trans hrising.le
          exact ⟨div_nonneg (not_lt.1 hbegun) hattack, div_le_one_of_le₀ hrising.le hattack⟩
      · next hrisen =>
          split
          · next hfalling =>
              -- The fall goes over a part of the way from one to the level that is held.
              have hsome : 0 ≤ (t - e.attack) / e.decay := div_nonneg (by linarith) hdecay
              have hpart : (t - e.attack) / e.decay ≤ 1 := div_le_one_of_le₀ (by linarith) hdecay
              have hdepth : 0 ≤ 1 - e.sustain := by linarith
              have hfall := mul_nonneg hsome hdepth
              have hleft := mul_le_mul hpart (by linarith : 1 - e.sustain ≤ 1) hdepth zero_le_one
              exact ⟨by linarith, by linarith⟩
          · exact ⟨hsustain, hfull⟩

/-! ## The fade -/

theorem amplitude_of_held (h : isHeld t held = true) : e.amplitude t held = e.level t := by
  rw [amplitude.eq_def]
  split
  · next hbefore => exact (level_of_lt_zero hbefore).symm
  · rfl

theorem amplitude_none (e : Envelope Rat) (t : Rat) : e.amplitude t none = e.level t :=
  amplitude_of_held rfl

theorem isHeld_some : isHeld t (some hold) = true ↔ t < hold := decide_eq_true_iff

/-- From the release on the note fades along a line, down to nothing. -/
theorem amplitude_of_released (hbegun : 0 ≤ t) (h : hold ≤ t) :
    e.amplitude t (some hold) =
      if e.release ≤ 0 then 0 else max (e.level hold * (1 - (t - hold) / e.release)) 0 := by
  have hreleased : ¬ isHeld t (some hold) = true := by
    rw [isHeld_some]
    exact not_lt.2 h
  rw [amplitude, if_neg (not_lt.2 hbegun), if_neg hreleased]
  show (if e.release ≤ 0 then 0 else Scalar.larger _ 0) = _
  rw [Scalar.larger_eq_max]

theorem Proper.amplitude_bounds (h : e.Proper) (t : Rat) (hheld : ∀ hold ∈ held, 0 ≤ hold) :
    0 ≤ e.amplitude t held ∧ e.amplitude t held ≤ 1 := by
  have hlevel := level_bounds h.decay h.sustain h.full
  by_cases hbefore : isHeld t held = true
  · rw [amplitude_of_held hbefore]
    exact hlevel t
  · cases held with
    | none => exact absurd rfl hbefore
    | some hold =>
        have hafter : hold ≤ t := not_lt.1 (mt isHeld_some.2 hbefore)
        rw [amplitude_of_released ((hheld hold rfl).trans hafter) hafter]
        split
        · exact ⟨le_refl 0, zero_le_one⟩
        · have hpast : 0 ≤ (t - hold) / e.release := div_nonneg (by linarith) h.release
          have hless : e.level hold * (1 - (t - hold) / e.release) ≤ e.level hold :=
            mul_le_of_le_one_right (hlevel hold).1 (by linarith)
          exact ⟨le_max_right _ _, max_le (hless.trans (hlevel hold).2) zero_le_one⟩

theorem amplitude_at_release (hhold : 0 ≤ hold) (hlevel : 0 ≤ e.level hold)
    (hfades : 0 < e.release) : e.amplitude hold (some hold) = e.level hold := by
  rw [amplitude_of_released hhold le_rfl, if_neg (not_le.2 hfades), sub_self, zero_div, sub_zero,
    mul_one, max_eq_left hlevel]

theorem amplitude_antitone (hbegun : 0 ≤ t) (hlevel : 0 ≤ e.level hold) (h : hold ≤ t)
    (htu : t ≤ u) : e.amplitude u (some hold) ≤ e.amplitude t (some hold) := by
  rw [amplitude_of_released hbegun h, amplitude_of_released (hbegun.trans htu) (h.trans htu)]
  split
  · exact le_refl 0
  · next hfades =>
      have hpast : (t - hold) / e.release ≤ (u - hold) / e.release :=
        div_le_div_of_nonneg_right (by linarith) (not_le.1 hfades).le
      have hline : e.level hold * (1 - (u - hold) / e.release) ≤
          e.level hold * (1 - (t - hold) / e.release) :=
        mul_le_mul_of_nonneg_left (by linarith) hlevel
      exact max_le_max_right 0 hline

theorem amplitude_faded (hbegun : 0 ≤ t) (hrelease : 0 ≤ e.release) (hlevel : 0 ≤ e.level hold)
    (h : hold + e.release ≤ t) : e.amplitude t (some hold) = 0 := by
  rw [amplitude_of_released hbegun (by linarith)]
  split
  · rfl
  · next hfades =>
      have hpast : 1 ≤ (t - hold) / e.release := by
        rw [one_le_div₀ (not_le.1 hfades)]
        linarith
      exact max_eq_right (mul_nonpos_of_nonneg_of_nonpos hlevel (by linarith))

/-! ## Divisions and calls -/

/-- A quotient, where there is one. -/
def quotient? (x y : Rat) : Option Rat := if y = 0 then none else some (x / y)

theorem quotient?_of_pos {x y : Rat} (h : 0 < y) : quotient? x y = some (x / y) := if_neg h.ne'

/-- The level of a note that has begun and is held, with a check at each division. -/
def level? (e : Envelope Rat) (t : Rat) : Option Rat :=
  if t < e.attack then quotient? t e.attack
  else if t < e.attack + e.decay then
    (quotient? (t - e.attack) e.decay).map fun part => 1 - part * (1 - e.sustain)
  else some e.sustain

/-- The amplitude within a number of calls, the first one counted, and with a check at each
division. The level that a fade starts from is asked for as the amplitude, at the time of
the release, of the same note not released; there is no such time if it never is. -/
def amplitudeWithin? (e : Envelope Rat) : (calls : Nat) → (t : Rat) → (held : Option Rat) →
    Option Rat
  | 0, _, _ => none
  | calls + 1, t, held =>
    if t < 0 then some 0
    else do
      let level ← e.level? t
      if isHeld t held then return level
      if e.release ≤ 0 then return 0
      let hold ← held
      let reached ← e.amplitudeWithin? calls hold none
      let part ← quotient? (t - hold) e.release
      return Scalar.larger (reached * (1 - part)) 0

/-- A part of the curve that a time falls into has a length. -/
theorem level?_eq (h : 0 ≤ t) : e.level? t = some (e.level t) := by
  rw [level?, level, if_neg (not_lt.2 h)]
  split
  · next hrising => exact quotient?_of_pos (h.trans_lt hrising)
  · next hrisen =>
      split
      · next hfalling =>
          have hdecay : 0 < e.decay := by linarith
          rw [quotient?_of_pos hdecay]
          rfl
      · rfl

/-- While it is held a note needs one call. -/
theorem amplitudeWithin?_of_held (calls : Nat) (h : isHeld t held = true) :
    e.amplitudeWithin? (calls + 1) t held = some (e.amplitude t held) := by
  rw [amplitudeWithin?, amplitude_of_held h]
  split
  · next hbefore => rw [level_of_lt_zero hbefore]
  · next hbegun =>
      rw [level?_eq (not_lt.1 hbegun)]
      rfl

theorem amplitudeWithin?_two (t : Rat) (hheld : ∀ hold ∈ held, 0 ≤ hold) :
    e.amplitudeWithin? 2 t held = some (e.amplitude t held) := by
  by_cases hbefore : isHeld t held = true
  · exact amplitudeWithin?_of_held 1 hbefore
  · cases held with
    | none => exact absurd rfl hbefore
    | some hold =>
        have hhold := hheld hold rfl
        have hafter : hold ≤ t := not_lt.1 (mt isHeld_some.2 hbefore)
        have hbegun : 0 ≤ t := hhold.trans hafter
        rw [amplitudeWithin?, if_neg (not_lt.2 hbegun), level?_eq hbegun, Option.bind_eq_bind,
          Option.bind_some, if_neg hbefore, amplitude_of_released hbegun hafter]
        split
        · rfl
        · next hfades =>
            simp only [Option.bind_some,
              amplitudeWithin?_of_held 0 (show isHeld hold none = true from rfl), amplitude_none,
              quotient?_of_pos (not_le.1 hfades), Scalar.larger_eq_max]
            rfl

/-! ## The whole curve -/

/-- At any time, for a note released at any time or never: two calls answer, without a
division by zero, with a number between zero and one. It is zero before the onset, the
curve of the held note up to the release, and from then on a fade that begins at the level
reached, never rises and is over once the release is. -/
theorem Proper.envelope_shape (h : e.Proper) (t : Rat) (held : Option Rat)
    (hheld : ∀ hold ∈ held, 0 ≤ hold) :
    e.amplitudeWithin? 2 t held = some (e.amplitude t held) ∧
    0 ≤ e.amplitude t held ∧ e.amplitude t held ≤ 1 ∧
    (t < 0 → e.amplitude t held = 0) ∧
    ((∀ hold ∈ held, t < hold) → e.amplitude t held = e.amplitude t none) ∧
    ∀ hold ∈ held,
      (0 < e.release → e.amplitude hold held = e.amplitude hold none) ∧
      (hold ≤ t → ∀ u, t ≤ u → e.amplitude u held ≤ e.amplitude t held) ∧
      (hold + e.release ≤ t → e.amplitude t held = 0) := by
  have hlevel (t : Rat) : 0 ≤ e.level t := (level_bounds h.decay h.sustain h.full t).1
  have hbounds := h.amplitude_bounds t hheld
  refine ⟨amplitudeWithin?_two t hheld, hbounds.1, hbounds.2, fun hbefore => if_pos hbefore,
    fun hearly => ?_, ?_⟩
  · rw [amplitude_none]
    cases held with
    | none => exact amplitude_none e t
    | some hold => exact amplitude_of_held (isHeld_some.2 (hearly hold rfl))
  · rintro hold rfl
    have hhold := hheld hold rfl
    refine ⟨fun hfades => ?_, fun hafter u htu => ?_, fun hover => ?_⟩
    · rw [amplitude_none]
      exact amplitude_at_release hhold (hlevel hold) hfades
    · exact amplitude_antitone (hhold.trans hafter) (hlevel hold) hafter htu
    · exact amplitude_faded (by linarith [h.release]) h.release (hlevel hold) hover

end Envelope

/-- What five sounds have in common all tracks have. -/
theorem VoiceKind.ofTrack_of_all {P : VoiceKind Rat → Prop} (tone : P .tone) (bass : P .bass)
    (kick : P .kick) (hat : P (.noise 0.05)) (snare : P (.noise 0.18)) (t : Track) :
    P (.ofTrack t) := by
  rw [VoiceKind.ofTrack.eq_def]
  split
  · split
    · exact kick
    · split
      · exact hat
      · exact snare
  · split
    · exact bass
    · exact tone

/-- The sounds of tracks have proper envelopes. -/
theorem VoiceKind.proper_ofTrack (t : Track) :
    (VoiceKind.ofTrack t : VoiceKind Rat).envelope.Proper := by
  refine ofTrack_of_all (P := fun kind => kind.envelope.Proper) ?_ ?_ ?_ ?_ ?_ t <;>
    constructor <;> decide +kernel

/-- A piano that is let go halfway up its attack fades from there. -/
theorem VoiceKind.staccato_shape :
    let e := (VoiceKind.ofTrack ⟨"t_piano", "Piano", .instrument, false⟩ : VoiceKind Rat).envelope
    let held : Option Rat := some (1 / 200)
    (∀ hold ∈ held, 0 ≤ hold) ∧ e.amplitudeWithin? 2 (11 / 200) held = some (1 / 3) ∧
    e.amplitudeWithin? 1 (11 / 200) held = none ∧
    e.amplitude (-1) held = 0 ∧ e.amplitude (1 / 400) held = e.amplitude (1 / 400) none ∧
    e.amplitude (1 / 200) held = e.amplitude (1 / 200) none ∧
    e.amplitude (1 / 10) held ≤ e.amplitude (11 / 200) held ∧ e.amplitude (31 / 200) held = 0 := by
  intro e held
  have hproper : e.Proper := VoiceKind.proper_ofTrack _
  have hheld : ∀ hold ∈ held, 0 ≤ hold := by
    intro hold hmem
    obtain rfl : 1 / 200 = hold := Option.some.inj hmem
    decide +kernel
  have hshape (t : Rat) := hproper.envelope_shape t held hheld
  obtain ⟨hcalls, -, -, -, -, hreleased⟩ := hshape (11 / 200)
  obtain ⟨hstart, hfalls, -⟩ := hreleased (1 / 200) rfl
  obtain ⟨-, -, -, hbefore, -⟩ := hshape (-1)
  obtain ⟨-, -, -, -, hearly, -⟩ := hshape (1 / 400)
  obtain ⟨-, -, -, -, -, hreleased'⟩ := hshape (31 / 200)
  obtain ⟨-, -, hover⟩ := hreleased' (1 / 200) rfl
  refine ⟨hheld, ?_, by decide +kernel, hbefore (by decide +kernel), hearly ?_,
    hstart (by decide +kernel), hfalls (by decide +kernel) _ (by decide +kernel),
    hover (by decide +kernel)⟩
  · rw [hcalls]
    decide +kernel
  · intro hold hmem
    obtain rfl : 1 / 200 = hold := Option.some.inj hmem
    decide +kernel

end NoteRoll
