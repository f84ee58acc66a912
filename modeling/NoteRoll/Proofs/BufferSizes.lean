import Mathlib.Algebra.Order.Field.Basic
import Mathlib.Data.Nat.ModEq
import Mathlib.Tactic.Linarith
import NoteRoll.Proofs.EnvelopeShape
import NoteRoll.Proofs.VoiceRelease

/-!
# What is heard does not depend on the buffers

A device asks for buffers of whatever size it likes, and two runs over the same
frames cut them differently. Frame by frame they do the same, but voices are dropped
at the end of a buffer only, so in between the two runs have different voices. Those
that one of them has and the other has not are silent, and adding nothing is the same
as not adding.

Two runs are not compared with each other. Each is compared with a run that renders
all frames at once and drops no voice, and `Kept` is how the voices of the one lie
among those of the other. What a dropped voice would have gone on doing to its phase,
its filter and its noise is of no consequence: `SilentFrom` is about all voices of one
outline, and rendering leaves the outline alone.

That a voice may be dropped at all is a matter of its envelope. For an envelope of any
numbers it is wrong: one that falls to nothing while it is held, but fades slowly once
it is released, would be finished by the first and heard by the second. The envelopes
that tracks get either do not fall to nothing or do not fade.
-/

namespace NoteRoll

variable {α β : Type} [Waveform α β] [Sample β]

/-! ## Voices that may be dropped -/

namespace Voice

/-- From a frame on the voice is not heard, whatever its wave has come to. -/
def SilentFrom (v : Voice α β) (frame : Nat) (rate : α) : Prop :=
  ∀ w : Voice α β, w.outline = v.outline → ∀ f, frame ≤ f → (w.render f rate).1 = 0

/-- Once it is finished the voice is not heard again. -/
def EndsSilent (v : Voice α β) (rate : α) : Prop :=
  ∀ frame, v.isFinished frame rate = true → v.SilentFrom frame rate

variable {v w : Voice α β} {frame : Nat} {rate : α}

theorem SilentFrom.of_outline (h : v.SilentFrom frame rate) (hw : w.outline = v.outline) :
    w.SilentFrom frame rate :=
  fun u hu => h u (hu.trans hw)

theorem SilentFrom.later (h : v.SilentFrom frame rate) {frame' : Nat} (hle : frame ≤ frame') :
    v.SilentFrom frame' rate :=
  fun u hu f hf => h u hu f (Nat.le_trans hle hf)

theorem EndsSilent.of_outline (h : v.EndsSilent rate) (hw : w.outline = v.outline) :
    w.EndsSilent rate := by
  intro frame hfinished
  rw [isFinished_congr hw] at hfinished
  exact (h frame hfinished).of_outline hw

end Voice

namespace Mixer

/-! ## Frames in a row -/

theorem renderFrames_done (rate : α) (count frame : Nat) (done : List β)
    (voices : List (Voice α β)) :
    renderFrames rate count frame done voices =
      (done.reverse ++ (renderFrames rate count frame [] voices).1,
        (renderFrames rate count frame [] voices).2) := by
  induction count generalizing frame done voices with
  | zero =>
      simp only [renderFrames, List.reverse_nil, List.append_nil]
  | succ count ih =>
      simp only [renderFrames]
      rw [ih (frame + 1) (_ :: done), ih (frame + 1) [_]]
      simp only [List.reverse_cons, List.reverse_nil, List.nil_append, List.append_assoc]

theorem renderFrames_add (rate : α) (a b frame : Nat) (voices : List (Voice α β)) :
    (renderFrames rate (a + b) frame [] voices).1 =
      (renderFrames rate a frame [] voices).1 ++
        (renderFrames rate b (frame + a) [] (renderFrames rate a frame [] voices).2).1 := by
  induction a generalizing frame voices with
  | zero =>
      simp only [Nat.zero_add, renderFrames, List.reverse_nil, List.nil_append, Nat.add_zero]
  | succ a ih =>
      have hnext : frame + 1 + a = frame + (a + 1) := by omega
      rw [Nat.succ_add, renderFrames, renderFrames]
      simp only []
      rw [renderFrames_done, renderFrames_done rate a, ih, hnext]
      simp only [List.append_assoc]

theorem length_renderFrames (rate : α) (count frame : Nat) (done : List β)
    (voices : List (Voice α β)) :
    (renderFrames rate count frame done voices).1.length = done.length + count := by
  induction count generalizing frame done voices with
  | zero => exact List.length_reverse
  | succ count ih =>
      rw [renderFrames]
      simp only [ih, List.length_cons]
      omega

/-! ## The same frames with fewer voices -/

/-- Voices of which some may be missing, each of them silent from a frame on. -/
inductive Kept (rate : α) (frame : Nat) : List (Voice α β) → List (Voice α β) → Prop where
  | nil : Kept rate frame [] []
  | keep {v : Voice α β} {all kept : List (Voice α β)} (ends : v.EndsSilent rate)
      (rest : Kept rate frame all kept) : Kept rate frame (v :: all) (v :: kept)
  | drop {v : Voice α β} {all kept : List (Voice α β)} (silent : v.SilentFrom frame rate)
      (rest : Kept rate frame all kept) : Kept rate frame (v :: all) kept

variable {rate : α} {frame : Nat} {all kept : List (Voice α β)}

theorem Kept.refl {voices : List (Voice α β)} (h : ∀ v ∈ voices, v.EndsSilent rate) :
    Kept rate frame voices voices := by
  induction voices with
  | nil => exact .nil
  | cons v vs ih =>
      rw [List.forall_mem_cons] at h
      exact .keep h.1 (ih h.2)

/-- At the end of a buffer it is finished voices that go. -/
theorem Kept.dropFinished (h : Kept rate frame all kept) :
    Kept rate frame all (kept.filter fun v => !v.isFinished frame rate) := by
  induction h with
  | nil => exact .nil
  | keep ends rest ih =>
      rw [List.filter_cons]
      split
      · exact .keep ends ih
      · next hgone =>
          rw [Bool.not_eq_true', Bool.not_eq_false] at hgone
          exact .drop (ends frame hgone) ih
  | drop silent rest ih => exact .drop silent ih

theorem Kept.mixFrame (hzero : ∀ x : β, x + 0 = x) (h : Kept rate frame all kept) (mixed : β) :
    (mixFrame frame rate mixed all).1 = (mixFrame frame rate mixed kept).1 ∧
      Kept rate (frame + 1) (mixFrame frame rate mixed all).2
        (mixFrame frame rate mixed kept).2 := by
  induction h generalizing mixed with
  | nil => exact ⟨rfl, .nil⟩
  | @keep v all kept ends rest ih =>
      obtain ⟨hsum, hkept⟩ := ih (mixed + (v.render frame rate).1)
      exact ⟨hsum, .keep (ends.of_outline (render_outline v frame rate)) hkept⟩
  | @drop v all kept silent rest ih =>
      have hsample : (v.render frame rate).1 = 0 := silent v rfl frame (Nat.le_refl _)
      have hlater := (silent.of_outline (render_outline v frame rate)).later (Nat.le_succ frame)
      obtain ⟨hsum, hkept⟩ := ih mixed
      simp only [Mixer.mixFrame, hsample, hzero]
      exact ⟨hsum, .drop hlater hkept⟩

theorem Kept.renderFrames (hzero : ∀ x : β, x + 0 = x) (h : Kept rate frame all kept)
    (count : Nat) (done : List β) :
    (renderFrames rate count frame done all).1 = (renderFrames rate count frame done kept).1 ∧
      Kept rate (frame + count) (renderFrames rate count frame done all).2
        (renderFrames rate count frame done kept).2 := by
  induction count generalizing frame done all kept with
  | zero => exact ⟨rfl, h⟩
  | succ count ih =>
      obtain ⟨hsum, hkept⟩ := h.mixFrame hzero 0
      simp only [Mixer.renderFrames, hsum]
      have hnext : frame + (count + 1) = frame + 1 + count := by omega
      rw [hnext]
      exact ih hkept _

/-! ## Buffers -/

/-- The samples that a buffer of some length is filled with, each frame once for every
channel. -/
def fill (m : Mixer α β) (length : Nat) : List β × Mixer α β :=
  let r := m.process (m.framesOf length)
  ((r.frames.flatMap fun x => List.replicate m.channels x).take length, r.mixer)

/-- Buffers that are filled one after the other. -/
def fillAll (m : Mixer α β) : List Nat → List β × Mixer α β
  | [] => ([], m)
  | length :: lengths =>
    let (samples, m) := m.fill length
    let (rest, m) := m.fillAll lengths
    (samples ++ rest, m)

omit [Waveform α β] [Sample β] in
theorem framesOf_of_dvd {m : Mixer α β} {length : Nat} (h : m.channels ∣ length) :
    m.framesOf length = length / m.channels := by
  obtain ⟨count, rfl⟩ := h
  rw [framesOf]
  rcases Nat.eq_zero_or_pos m.channels with hnone | hsome
  · rw [hnone, Nat.div_zero, Nat.div_zero]
  · rw [Nat.mul_div_cancel_left _ hsome, Nat.add_sub_assoc hsome, Nat.mul_add_div hsome,
      Nat.div_eq_of_lt (by omega), Nat.add_zero]

omit [Sample β] in
theorem length_interleaved (channels : Nat) (frames : List β) :
    (frames.flatMap fun x => List.replicate channels x).length = frames.length * channels := by
  simp only [List.length_flatMap, List.length_replicate, List.map_const', List.sum_replicate_nat]

/-- A buffer holds what a run without buffers renders in its place, and leaves voices that
go on like those of that run. -/
theorem Kept.fill {m : Mixer α β} (hzero : ∀ x : β, x + 0 = x)
    (h : Kept (Scalar.ofNat m.rate) m.frame all m.voices) (hidle : m.queue = []) {length : Nat}
    (hlength : m.channels ∣ length) :
    let rendered := Mixer.renderFrames (Scalar.ofNat m.rate) (length / m.channels) m.frame [] all
    (m.fill length).1 = rendered.1.flatMap (List.replicate m.channels) ∧
      Kept (Scalar.ofNat m.rate) (m.frame + length / m.channels) rendered.2
        (m.fill length).2.voices := by
  intro rendered
  obtain ⟨hframes, hkept⟩ := h.renderFrames hzero (length / m.channels) []
  have hprocess : (m.process (m.framesOf length)).frames = rendered.1 := by
    rw [hframes, process, hidle, framesOf_of_dvd hlength]
    rfl
  have hwhole : (rendered.1.flatMap (List.replicate m.channels)).length = length := by
    rw [length_interleaved, length_renderFrames, List.length_nil, Nat.zero_add,
      Nat.div_mul_cancel hlength]
  constructor
  · simp only [Mixer.fill, hprocess]
    exact List.take_of_length_le hwhole.le
  · simp only [Mixer.fill, process, hidle, framesOf_of_dvd hlength, List.foldl_nil]
    exact hkept.dropFinished

/-- However the frames are cut, what is heard is what a run without buffers renders. -/
theorem Kept.fillAll {m : Mixer α β} (hzero : ∀ x : β, x + 0 = x)
    (h : Kept (Scalar.ofNat m.rate) m.frame all m.voices) (hidle : m.queue = [])
    {lengths : List Nat} (hlengths : ∀ n ∈ lengths, m.channels ∣ n) :
    (m.fillAll lengths).1 = (Mixer.renderFrames (Scalar.ofNat m.rate)
        (lengths.sum / m.channels) m.frame [] all).1.flatMap (List.replicate m.channels) ∧
      (m.fillAll lengths).2.frame = m.frame + lengths.sum / m.channels := by
  induction lengths generalizing m all with
  | nil =>
      rw [List.sum_nil, Nat.zero_div]
      exact ⟨rfl, rfl⟩
  | cons length lengths ih =>
      rw [List.forall_mem_cons] at hlengths
      obtain ⟨hsamples, hkept⟩ := h.fill hzero hidle hlengths.1
      have hframe : (m.fill length).2.frame = m.frame + length / m.channels := by
        simp only [Mixer.fill, process, framesOf_of_dvd hlengths.1]
      obtain ⟨hrest, hend⟩ := ih (m := (m.fill length).2) (hframe ▸ hkept) rfl hlengths.2
      rw [List.sum_cons, Nat.add_div_of_dvd_right hlengths.1]
      constructor
      · rw [renderFrames_add, List.flatMap_append, ← hsamples, ← hframe]
        exact congrArg _ hrest
      · rw [← Nat.add_assoc, ← hframe]
        exact hend

end Mixer

/-! ## Envelopes -/

/-- The envelopes whose end is the end of the sound: one that falls to nothing does not fade
after its release. -/
structure Envelope.EndsSilent (e : Envelope Rat) : Prop where
  decay : 0 ≤ e.decay
  sustain : 0 ≤ e.sustain
  full : e.sustain ≤ 1
  release : 0 ≤ e.release
  abrupt : e.sustain ≤ 0 → e.release ≤ 0

namespace Envelope

variable {e : Envelope Rat}

/-- A note that is finished is not heard from then on. -/
theorem EndsSilent.amplitude_eq_zero (h : e.EndsSilent) {t t' : Rat} {held : Option Rat}
    (hfinished : e.isFinished t held = true) (hle : t ≤ t') : e.amplitude t' held = 0 := by
  have hdecay := h.decay
  have hrelease := h.release
  rw [isFinished.eq_def] at hfinished
  by_cases hbegun : t' < 0
  · exact if_pos hbegun
  · split at hfinished
    · next hover =>
        have hlevel : e.level t' = 0 := by
          rw [level, if_neg hbegun, if_neg (by linarith), if_neg (by linarith)]
          exact le_antisymm hover.1 h.sustain
        rw [amplitude.eq_def, if_neg hbegun]
        split
        · exact hlevel
        · exact if_pos (h.abrupt hover.1)
    · cases held with
      | none => cases hfinished
      | some hold =>
          have hfaded : hold + e.release ≤ t := of_decide_eq_true hfinished
          have hlevel := (level_bounds hdecay h.sustain h.full hold).1
          exact amplitude_faded (not_lt.1 hbegun) hrelease hlevel (hfaded.trans hle)

end Envelope

theorem VoiceKind.endsSilent_ofTrack (t : Track) :
    (VoiceKind.ofTrack t : VoiceKind Rat).envelope.EndsSilent := by
  refine ofTrack_of_all (P := fun kind => kind.envelope.EndsSilent) ?_ ?_ ?_ ?_ ?_ t <;>
    constructor <;> decide +kernel

/-! ## Exact mixing -/

/-- The functions that waves are made of. For the buffers it does not matter what they are. -/
class Waves where
  sine : Rat → Rat
  exponential : Rat → Rat
  power : Rat → Rat → Rat

instance instSampleRat : Sample Rat where
  zero := 0
  decidableLT := inferInstance

instance instWaveformRat [Waves] : Waveform Rat Rat :=
  { instScalarRat with
    sine := Waves.sine
    exponential := Waves.exponential
    power := Waves.power
    toSample := id }

theorem Voice.endsSilent_of_track [Waves] {v : Voice Rat Rat} {t : Track}
    (hkind : v.kind = VoiceKind.ofTrack t) {rate : Rat} (hrate : 0 ≤ rate) :
    v.EndsSilent rate := by
  intro frame hfinished w hw f hf
  have hwkind : w.kind = VoiceKind.ofTrack t := (congrArg Outline.kind hw).trans hkind
  rw [← isFinished_congr hw, isFinished, Bool.and_eq_true, hwkind] at hfinished
  have hage : w.age frame rate ≤ w.age f rate := by
    have hframes : ((frame - w.startFrame : Nat) : Rat) ≤ ((f - w.startFrame : Nat) : Rat) :=
      Nat.cast_le.2 (Nat.sub_le_sub_right hf _)
    exact div_le_div_of_nonneg_right hframes hrate
  have hsilent := (VoiceKind.endsSilent_ofTrack t).amplitude_eq_zero hfinished.2 hage
  rw [render]
  split
  · rfl
  · show (w.wave (w.age f rate) rate).1 *
        w.kind.envelope.amplitude (w.age f rate) (w.held rate) *
        (w.wave (w.age f rate) rate).2.gain = 0
    rw [hwkind, hsilent, mul_zero, zero_mul]

/-- Where no command is waiting and every voice has the sound of some track, two ways of
asking for the same frames are answered with the same samples, and the clock is at the same
frame after both. What a buffer drops at its end is not heard again. -/
theorem Mixer.fillAll_independent [Waves] {m : Mixer Rat Rat} (hidle : m.queue = [])
    (hkinds : ∀ v ∈ m.voices, ∃ t, v.kind = VoiceKind.ofTrack t) {cuts cuts' : List Nat}
    (hcuts : ∀ n ∈ cuts, m.channels ∣ n) (hcuts' : ∀ n ∈ cuts', m.channels ∣ n)
    (hsame : cuts.sum = cuts'.sum) :
    (m.fillAll cuts).1 = (m.fillAll cuts').1 ∧
    (m.fillAll cuts).2.frame = (m.fillAll cuts').2.frame ∧
    ∀ (track : Track) (t t' : Rat) (held : Option Rat),
      (VoiceKind.ofTrack track).envelope.isFinished t held = true → t ≤ t' →
        (VoiceKind.ofTrack track).envelope.amplitude t' held = 0 := by
  have hrate : (0 : Rat) ≤ Scalar.ofNat m.rate := Nat.cast_nonneg m.rate
  have hkept : Kept (Scalar.ofNat m.rate) m.frame m.voices m.voices := by
    refine Kept.refl fun v hv => ?_
    obtain ⟨t, ht⟩ := hkinds v hv
    exact Voice.endsSilent_of_track ht hrate
  obtain ⟨hsamples, hframe⟩ := hkept.fillAll add_zero hidle hcuts
  obtain ⟨hsamples', hframe'⟩ := hkept.fillAll add_zero hidle hcuts'
  refine ⟨?_, ?_, fun track t t' held hfinished hle => ?_⟩
  · rw [hsamples, hsamples', hsame]
  · rw [hframe, hframe', hsame]
  · exact (VoiceKind.endsSilent_ofTrack track).amplitude_eq_zero hfinished hle

/-- Waves that can be computed. -/
abbrev straightWaves : Waves := ⟨fun x => x, fun x => x, fun x _ => x⟩

/-- A kick that is over after four frames, and a tone that begins after it. -/
def kickThenTone : Mixer Rat Rat where
  queue := []
  capacity := 4
  voices := [⟨1, .kick, 50, 1, 0, none, 1 / 4, 0, .ofSeed 1⟩,
    ⟨2, .tone, 440, 1 / 2, 4, some 5, 1 / 3, 0, .ofSeed 2⟩]
  frame := 2
  channels := 2
  rate := 10

/-- The kick is dropped where a buffer ends after it, and is kept where none does. -/
theorem kickThenTone_independent :
    letI : Waves := straightWaves
    (kickThenTone.fill 4).2.voices.map (·.id) = [2] ∧
    (kickThenTone.fillAll [4, 6]).1 = (kickThenTone.fillAll [10]).1 ∧
    (kickThenTone.fillAll [10]).1.length = 10 ∧ (kickThenTone.fillAll [4, 6]).2.frame = 7 := by
  let _ : Waves := straightWaves
  have hkinds : ∀ v ∈ kickThenTone.voices, ∃ t, v.kind = VoiceKind.ofTrack t := by
    intro v hv
    rcases List.mem_cons.1 hv with rfl | hv
    · exact ⟨⟨"t_kick", "Kick", .percussion, false⟩, rfl⟩
    · obtain rfl := List.mem_singleton.1 hv
      exact ⟨⟨"t_piano", "Piano", .instrument, false⟩, rfl⟩
  obtain ⟨hsamples, -, -⟩ := Mixer.fillAll_independent (m := kickThenTone) rfl hkinds
    (show ∀ n ∈ [4, 6], 2 ∣ n by decide) (show ∀ n ∈ [10], 2 ∣ n by decide) rfl
  exact ⟨by decide +kernel, hsamples, by decide +kernel, by decide +kernel⟩

end NoteRoll
