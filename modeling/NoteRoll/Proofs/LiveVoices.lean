import Mathlib.Data.List.Nodup
import NoteRoll.Proofs.BufferSizes

/-!
# The voices in the mixer

The mixer counts frames without a sign, so it must never take a later frame from an
earlier one. It does so in two places: the age of a voice, and the time it was held.
The age is asked for only once the voice has begun. The time held is safe because a
release is never set before the beginning, which is an invariant of the voices and not
a check that is made where it is used. `Mixer.process?` is the mixer with the check at
each subtraction, and along every run it renders what the mixer renders.

What else holds along a run is carried by the ring. The numbers of the voices, as they
will be when the ring has been drained, are among those that were answered to a start,
in the same order. A start puts its number at the end of both; what is dropped, by the
ring, the limit of voices or the end of a sound, leaves a sublist. Numbers are given
out once, so each voice goes back to exactly one start, whatever was released in
between and under whatever handle.

Nothing in this needs the ring to be drained: everything is shown for each moment of a
buffer, when only some of the waiting commands have been carried out.
-/

namespace NoteRoll

variable {α β : Type}

/-! ## Checked differences -/

/-- The frames from one to a later one. -/
def framesFrom? (first frame : Nat) : Option Nat :=
  if first ≤ frame then some (frame - first) else none

theorem framesFrom?_of_le {first frame : Nat} (h : first ≤ frame) :
    framesFrom? first frame = some (frame - first) := if_pos h

namespace Voice

variable [Waveform α β] [Sample β]

/-- The release is not before the beginning. -/
def Ordered (v : Voice α β) : Prop :=
  ∀ frame, v.releaseFrame = some frame → v.startFrame ≤ frame

def held? (v : Voice α β) (rate : α) : Option (Option α) :=
  match v.releaseFrame with
  | none => some none
  | some r => (framesFrom? v.startFrame r).map fun n => some (Scalar.ofNat n / rate)

def age? (v : Voice α β) (frame : Nat) (rate : α) : Option α :=
  (framesFrom? v.startFrame frame).map fun n => Scalar.ofNat n / rate

def render? (v : Voice α β) (frame : Nat) (rate : α) : Option (β × Voice α β) :=
  if frame < v.startFrame then some (0, v) else do
    let t ← v.age? frame rate
    let held ← v.held? rate
    let (wave, w) := v.wave t rate
    some (Waveform.toSample (wave * v.kind.envelope.amplitude t held) * w.gain, w)

def isFinished? (v : Voice α β) (frame : Nat) (rate : α) : Option Bool :=
  if frame < v.startFrame then some false else do
    let t ← v.age? frame rate
    let held ← v.held? rate
    some (v.kind.envelope.isFinished t held)

variable {v w : Voice α β}

omit [Waveform α β] [Sample β] in
theorem Ordered.of_outline (h : v.Ordered) (hw : w.outline = v.outline) : w.Ordered := by
  obtain ⟨-, -, hstart, hrelease⟩ := Outline.mk.inj hw
  intro frame hframe
  rw [hstart]
  exact h frame (hrelease ▸ hframe)

omit [Sample β] in
theorem ordered_start (id : Nat) (kind : VoiceKind α) (pitch : Nat) (gain : β)
    (startFrame : Nat) : (start id kind pitch gain startFrame).Ordered := by
  intro frame hframe
  cases hframe

omit [Waveform α β] [Sample β] in
theorem ordered_releaseAt (v : Voice α β) (frame : Nat) : (v.releaseAt frame).Ordered := by
  intro released hreleased
  obtain rfl := Option.some.inj hreleased
  exact Nat.le_max_right frame v.startFrame

omit [Sample β] in
theorem Ordered.held?_eq (h : v.Ordered) (rate : α) : v.held? rate = some (v.held rate) := by
  rw [held?.eq_def, held]
  cases hrelease : v.releaseFrame with
  | none => rfl
  | some r =>
      simp only [framesFrom?_of_le (h r hrelease)]
      rfl

omit [Sample β] in
theorem age?_of_le {frame : Nat} (h : v.startFrame ≤ frame) (rate : α) :
    v.age? frame rate = some (v.age frame rate) := by
  rw [age?, framesFrom?_of_le h]
  rfl

theorem Ordered.render?_eq (h : v.Ordered) (frame : Nat) (rate : α) :
    v.render? frame rate = some (v.render frame rate) := by
  rw [render?, render]
  split
  · rfl
  · next hbegun =>
      rw [age?_of_le (Nat.not_lt.1 hbegun), h.held?_eq]
      rfl

omit [Sample β] in
theorem Ordered.isFinished?_eq (h : v.Ordered) (frame : Nat) (rate : α) :
    v.isFinished? frame rate = some (v.isFinished frame rate) := by
  rw [isFinished?, isFinished]
  split
  · next hlater => simp [Nat.not_le.2 hlater]
  · next hbegun =>
      have hle := Nat.not_lt.1 hbegun
      rw [age?_of_le hle, h.held?_eq]
      simp [hle]

end Voice

namespace Mixer

/-! ## The checked mixer -/

section Checked

variable [Waveform α β] [Sample β]

def mixFrame? (frame : Nat) (rate : α) :
    (mixed : β) → List (Voice α β) → Option (β × List (Voice α β))
  | mixed, [] => some (mixed, [])
  | mixed, v :: vs => do
    let (sample, v) ← v.render? frame rate
    let (mixed, vs) ← mixFrame? frame rate (mixed + sample) vs
    some (mixed, v :: vs)

def renderFrames? (rate : α) :
    (count frame : Nat) → (done : List β) → List (Voice α β) →
      Option (List β × List (Voice α β))
  | 0, _, done, voices => some (done.reverse, voices)
  | count + 1, frame, done, voices => do
    let (mixed, voices) ← mixFrame? frame rate 0 voices
    renderFrames? rate count (frame + 1) (limit mixed :: done) voices

def unfinished? (frame : Nat) (rate : α) : List (Voice α β) → Option (List (Voice α β))
  | [] => some []
  | v :: vs => do
    let finished ← v.isFinished? frame rate
    let vs ← unfinished? frame rate vs
    some (if finished then vs else v :: vs)

/-- Renders a buffer, unless a later frame would have to be taken from an earlier one. -/
def process? (m : Mixer α β) (count : Nat) : Option (Rendered α β) := do
  let rate : α := Scalar.ofNat m.rate
  let (frames, voices) ← renderFrames? rate count m.frame [] (m.queue.foldl apply m.voices)
  let frame := m.frame + count
  let voices ← unfinished? frame rate voices
  some ⟨frames, { m with queue := [], frame, voices }⟩

variable {voices : List (Voice α β)}

theorem mixFrame?_eq (h : ∀ v ∈ voices, v.Ordered) (frame : Nat) (rate : α) (mixed : β) :
    mixFrame? frame rate mixed voices = some (mixFrame frame rate mixed voices) := by
  induction voices generalizing mixed with
  | nil => rfl
  | cons v vs ih =>
      rw [List.forall_mem_cons] at h
      rw [mixFrame?, h.1.render?_eq]
      simp only [Option.bind_eq_bind, Option.bind_some, ih h.2]
      rfl

omit [Waveform α β] [Sample β] in
theorem ordered_of_outlines {rendered : List (Voice α β)}
    (h : ∀ v ∈ voices, v.Ordered)
    (hsame : rendered.map Voice.outline = voices.map Voice.outline) :
    ∀ w ∈ rendered, w.Ordered := by
  intro w hw
  have hmem := List.mem_map_of_mem (f := Voice.outline) hw
  rw [hsame] at hmem
  obtain ⟨v, hv, houtline⟩ := List.mem_map.1 hmem
  exact (h v hv).of_outline houtline.symm

theorem renderFrames?_eq (h : ∀ v ∈ voices, v.Ordered) (rate : α) (count frame : Nat)
    (done : List β) :
    renderFrames? rate count frame done voices =
      some (renderFrames rate count frame done voices) := by
  induction count generalizing frame done voices with
  | zero => rfl
  | succ count ih =>
      have hlater := ordered_of_outlines h (mixFrame_outlines frame rate 0 voices)
      rw [renderFrames?, mixFrame?_eq h]
      simp only [Option.bind_eq_bind, Option.bind_some, ih hlater]
      rfl

omit [Sample β] in
theorem unfinished?_eq (h : ∀ v ∈ voices, v.Ordered) (frame : Nat) (rate : α) :
    unfinished? frame rate voices =
      some (voices.filter fun v => !v.isFinished frame rate) := by
  induction voices with
  | nil => rfl
  | cons v vs ih =>
      rw [List.forall_mem_cons] at h
      rw [unfinished?, h.1.isFinished?_eq, ih h.2]
      simp only [Option.bind_eq_bind, Option.bind_some, List.filter_cons]
      cases v.isFinished frame rate <;> rfl

/-- No check of a buffer fails if the voices that it renders are in order. -/
theorem process?_eq {m : Mixer α β} (h : ∀ v ∈ m.drained, v.Ordered) (count : Nat) :
    m.process? count = some (m.process count) := by
  rw [process?, ← drained, renderFrames?_eq h]
  have hrendered := ordered_of_outlines h
    (renderFrames_outlines (Scalar.ofNat m.rate) count m.frame [] m.drained)
  simp only [Option.bind_eq_bind, Option.bind_some, unfinished?_eq hrendered]
  rfl

end Checked

/-! ## Voices within bounds -/

/-- The voices when so many of the waiting commands have been carried out. -/
def voicesAfter [Waveform α β] (m : Mixer α β) (count : Nat) : List (Voice α β) :=
  (m.queue.take count).foldl apply m.voices

theorem voicesAfter_zero [Waveform α β] (m : Mixer α β) : m.voicesAfter 0 = m.voices := rfl

/-- There are not too many voices, and none is released before it begins. -/
structure Bounded (voices : List (Voice α β)) : Prop where
  few : voices.length ≤ maxVoices
  ordered : ∀ v ∈ voices, v.Ordered

theorem length_releaseVoice (id frame : Nat) (voices : List (Voice α β)) :
    (releaseVoice id frame voices).length = voices.length := by
  simpa using congrArg List.length (releaseVoice_ids id frame voices)

theorem ordered_releaseVoice {voices : List (Voice α β)} (h : ∀ v ∈ voices, v.Ordered)
    (id frame : Nat) : ∀ v ∈ releaseVoice id frame voices, v.Ordered := by
  induction voices with
  | nil => exact h
  | cons v vs ih =>
      rw [List.forall_mem_cons] at h
      rw [releaseVoice]
      split
      · exact List.forall_mem_cons.2 ⟨v.ordered_releaseAt frame, h.2⟩
      · exact List.forall_mem_cons.2 ⟨h.1, ih h.2⟩

variable [Waveform α β] {voices : List (Voice α β)}

theorem Bounded.apply (h : Bounded voices) (c : SoundCommand α β) :
    Bounded (apply voices c) := by
  cases c with
  | start voice kind pitch gain frame =>
      rw [Mixer.apply]
      split
      · next hroom =>
          constructor
          · rw [List.length_append, List.length_singleton]
            omega
          · intro v hv
            rcases List.mem_append.1 hv with hv | hv
            · exact h.ordered v hv
            · rw [List.mem_singleton.1 hv]
              exact Voice.ordered_start voice kind pitch gain frame
      · exact h
  | release voice frame =>
      constructor
      · rw [Mixer.apply, length_releaseVoice]
        exact h.few
      · exact ordered_releaseVoice h.ordered voice frame

theorem Bounded.foldl_apply (h : Bounded voices) (commands : List (SoundCommand α β)) :
    Bounded (commands.foldl Mixer.apply voices) :=
  List.foldlRecOn commands _ h fun _ hv c _ => hv.apply c

/-- A command appends a voice at most, and takes none away. -/
theorem ids_isPrefix_apply (voices : List (Voice α β)) (c : SoundCommand α β) :
    voices.map (·.id) <+: (apply voices c).map (·.id) := by
  cases c with
  | start voice kind pitch gain frame =>
      rw [apply]
      split
      · rw [List.map_append]
        exact List.prefix_append _ _
      · exact List.prefix_refl _
  | release voice frame => exact ⟨[], by rw [List.append_nil, apply, releaseVoice_ids]⟩

theorem ids_isPrefix_foldl_apply (voices : List (Voice α β))
    (commands : List (SoundCommand α β)) :
    voices.map (·.id) <+: (commands.foldl apply voices).map (·.id) := by
  induction commands generalizing voices with
  | nil => exact List.prefix_refl _
  | cons c cs ih => exact (ids_isPrefix_apply voices c).trans (ih (apply voices c))

theorem ids_isPrefix_voicesAfter (m : Mixer α β) (count : Nat) :
    (m.voicesAfter count).map (·.id) <+: m.drained.map (·.id) := by
  have hsplit : m.drained =
      (m.queue.drop count).foldl apply (m.voicesAfter count) := by
    rw [drained, voicesAfter, ← List.foldl_append, List.take_append_drop]
  rw [hsplit]
  exact ids_isPrefix_foldl_apply _ _

theorem Bounded.process [Sample β] {m : Mixer α β} (h : Bounded m.voices) (count : Nat) :
    Bounded (m.process count).mixer.voices := by
  obtain ⟨rendered, hsame, hvoices⟩ := m.process_voices count
  have hdrained : Bounded m.drained := h.foldl_apply m.queue
  have hlength : rendered.length = m.drained.length := by
    simpa using congrArg List.length hsame
  rw [hvoices]
  constructor
  · calc (rendered.filter _).length ≤ rendered.length := List.length_filter_le _ _
      _ = m.drained.length := hlength
      _ ≤ maxVoices := hdrained.few
  · intro v hv
    exact ordered_of_outlines hdrained.ordered hsame v (List.mem_filter.1 hv).1

end Mixer

namespace Engine

variable [Waveform α β] [Sample β]

/-! ## What a run answers and renders -/

/-- The number that is given back to the start made in a call, if the ring takes it. -/
def answer (e : Engine α β) : Call α → Option Handle
  | .schedule pitch track time gain => (e.schedule pitch track time gain).1
  | .preview pitch track =>
    if e.ready then (e.startVoice pitch track e.now previewGain).1 else none
  | .release .. | .configure _ | .process _ => none

def answers (e : Engine α β) : List (Call α) → List Handle
  | [] => []
  | c :: cs => (e.answer c).toList ++ (e.next c).answers cs

/-- The frames that a call has rendered. -/
def renders (e : Engine α β) : Call α → List β
  | .process count => (e.pump count).1
  | .schedule .. | .preview .. | .release .. | .configure _ => []

def rendered (e : Engine α β) : List (Call α) → List β
  | [] => []
  | c :: cs => e.renders c ++ (e.next c).rendered cs

variable {e : Engine α β}

omit [Sample β] in
theorem startVoice_mixer (e : Engine α β) (pitch : Nat) (track : TrackId) (time gain : α) :
    (e.startVoice pitch track time gain).2.mixer.voices = e.mixer.voices ∧
      (e.startVoice pitch track time gain).2.mixer.frame = e.mixer.frame := by
  by_cases hroom : e.mixer.queue.length < e.mixer.capacity
  · rw [startVoice_of_room hroom]
    exact ⟨rfl, rfl⟩
  · rw [startVoice_of_full hroom]
    exact ⟨rfl, rfl⟩

omit [Sample β] in
theorem release_mixer (e : Engine α β) (handle : Handle) (time : α) :
    (e.release handle time).mixer.voices = e.mixer.voices ∧
      (e.release handle time).mixer.frame = e.mixer.frame := by
  by_cases hroom : e.mixer.queue.length < e.mixer.capacity
  · rw [release_of_room hroom]
    exact ⟨rfl, rfl⟩
  · rw [release_of_full hroom]
    exact ⟨rfl, rfl⟩

/-- The mixer's voices and its clock stand still between buffers. -/
theorem next_mixer {c : Call α} (h : ∀ count, c ≠ .process count) :
    (e.next c).mixer.voices = e.mixer.voices ∧ (e.next c).mixer.frame = e.mixer.frame := by
  cases c with
  | schedule pitch track time gain =>
      rw [next, schedule]
      split
      · exact e.startVoice_mixer pitch track time gain
      · exact ⟨rfl, rfl⟩
  | preview pitch track =>
      rw [next, preview]
      split
      · have hstarted := e.startVoice_mixer pitch track e.now previewGain
        generalize e.startVoice pitch track e.now previewGain = started at hstarted ⊢
        obtain ⟨voice, started⟩ := started
        cases voice with
        | none => exact hstarted
        | some voice =>
            obtain ⟨hvoices, hframe⟩ := started.release_mixer voice (e.now + previewSeconds)
            exact ⟨hvoices.trans hstarted.1, hframe.trans hstarted.2⟩
      · exact ⟨rfl, rfl⟩
  | release handle time => exact e.release_mixer handle time
  | configure tracks => exact ⟨rfl, rfl⟩
  | process count => exact absurd rfl (h count)

theorem next_bounded (h : Mixer.Bounded e.mixer.voices) (c : Call α) :
    Mixer.Bounded (e.next c).mixer.voices := by
  cases c with
  | process count => exact h.process count
  | schedule | preview | release | configure =>
      rw [(next_mixer (by intro count hc; cases hc)).1]
      exact h

theorem run_bounded (h : Mixer.Bounded e.mixer.voices) (calls : List (Call α)) :
    Mixer.Bounded (e.run calls).mixer.voices := by
  induction calls generalizing e with
  | nil => exact h
  | cons c cs ih => exact ih (next_bounded h c)

theorem next_frame (e : Engine α β) (c : Call α) :
    (e.next c).mixer.frame = e.mixer.frame + (e.renders c).length := by
  cases c with
  | process count =>
      have hlength : (e.renders (.process count)).length = [].length + count :=
        Mixer.length_renderFrames _ _ _ _ _
      rw [hlength, List.length_nil, Nat.zero_add]
      rfl
  | schedule | preview | release | configure =>
      rw [(next_mixer (by intro count hc; cases hc)).2]
      rfl

/-- The clock counts the frames that have been rendered. -/
theorem run_frame (e : Engine α β) (calls : List (Call α)) :
    (e.run calls).mixer.frame = e.mixer.frame + (e.rendered calls).length := by
  induction calls generalizing e with
  | nil => rfl
  | cons c cs ih =>
      have hnext := e.next_frame c
      have hrest := ih (e.next c)
      rw [rendered, List.length_append]
      rw [run, List.foldl_cons]
      rw [run] at hrest
      omega

/-! ## Each voice goes back to one start -/

/-- The numbers of the drained voices are among those that starts were answered with, in
that order. -/
structure Answered (e : Engine α β) (given : List Handle) : Prop where
  increasing : given.Pairwise (· < ·)
  below : ∀ handle ∈ given, handle < e.nextVoice
  voices : (e.mixer.drained.map (·.id)).Sublist given

variable {given : List Handle}

omit [Sample β] in
theorem Answered.startVoice (h : Answered e given) (pitch : Nat) (track : TrackId)
    (time gain : α) :
    Answered (e.startVoice pitch track time gain).2
      (given ++ (e.startVoice pitch track time gain).1.toList) := by
  by_cases hroom : e.mixer.queue.length < e.mixer.capacity
  · rw [startVoice_of_room hroom]
    have hdrained := e.mixer.drained_queue_append (e.startCommand pitch track time gain)
    refine ⟨?_, ?_, ?_⟩
    · rw [Option.toList_some, List.pairwise_append]
      refine ⟨h.increasing, List.pairwise_singleton _ _, ?_⟩
      intro handle hhandle new hnew
      rw [List.mem_singleton.1 hnew]
      exact h.below handle hhandle
    · intro handle hhandle
      rcases List.mem_append.1 hhandle with hold | hnew
      · exact Nat.lt_succ_of_lt (h.below handle hold)
      · rw [List.mem_singleton.1 hnew]
        exact Nat.lt_succ_self _
    · dsimp only
      rw [hdrained, startCommand, Mixer.apply]
      split
      · rw [List.map_append]
        exact h.voices.append (List.Sublist.refl _)
      · exact h.voices.trans (List.sublist_append_left _ _)
  · -- The number is used up all the same, so the next one is greater still.
    rw [startVoice_of_full hroom, Option.toList_none, List.append_nil]
    exact ⟨h.increasing, fun handle hhandle => Nat.lt_succ_of_lt (h.below handle hhandle),
      h.voices⟩

omit [Sample β] in
theorem Answered.release (h : Answered e given) (handle : Handle) (time : α) :
    Answered (e.release handle time) given := by
  by_cases hroom : e.mixer.queue.length < e.mixer.capacity
  · rw [release_of_room hroom]
    refine ⟨h.increasing, h.below, ?_⟩
    dsimp only
    rw [Mixer.drained_queue_append, Mixer.apply, Mixer.releaseVoice_ids]
    exact h.voices
  · rw [release_of_full hroom]
    exact h

theorem Answered.next (h : Answered e given) (c : Call α) :
    Answered (e.next c) (given ++ (e.answer c).toList) := by
  cases c with
  | schedule pitch track time gain =>
      rw [answer, Engine.next, Engine.schedule]
      split
      · exact h.startVoice pitch track time gain
      · rw [Option.toList_none, List.append_nil]
        exact h
  | preview pitch track =>
      rw [answer, Engine.next, Engine.preview]
      split
      · have hstarted := h.startVoice pitch track e.now previewGain
        generalize e.startVoice pitch track e.now previewGain = started at hstarted ⊢
        obtain ⟨voice, started⟩ := started
        cases voice with
        | none => exact hstarted
        | some voice => exact hstarted.release voice _
      · rw [Option.toList_none, List.append_nil]
        exact h
  | release handle time =>
      rw [answer, Option.toList_none, List.append_nil]
      exact h.release handle time
  | configure tracks =>
      rw [answer, Option.toList_none, List.append_nil]
      exact ⟨h.increasing, h.below, h.voices⟩
  | process count =>
      rw [answer, Option.toList_none, List.append_nil]
      exact ⟨h.increasing, h.below, (e.mixer.process_ids_sublist count).trans h.voices⟩

theorem Answered.run (h : Answered e given) (calls : List (Call α)) :
    Answered (e.run calls) (given ++ e.answers calls) := by
  induction calls generalizing e given with
  | nil =>
      rw [answers, List.append_nil]
      exact h
  | cons c cs ih =>
      rw [answers, ← List.append_assoc]
      exact ih (h.next c)

/-! ## All runs -/

omit [Sample β] in
theorem ofDevice_mixer {device : Option Device} (hopen : ofDevice device = .ok e) :
    ∃ channels rate, e.mixer = .start ringCapacity channels rate := by
  have hready : openReady device = .ok e.preload := by
    rw [openReady, hopen]
    rfl
  exact openReady_mixer (e := e.preload) hready

/-- Any calls of an engine, ready or not, with buffers anywhere among them. At each moment,
before, between and after the commands of a buffer: there are at most as many voices as
there may be; their numbers are distinct, and each was the answer to exactly one start; and
none is released before it begins. So a buffer never takes a later frame from an earlier
one. The clock is at the number of all frames rendered, and never goes back. -/
theorem mixer_invariants {device : Option Device} {opened : Engine α β}
    (hopen : ofDevice device = .ok opened) (ready : Bool) (calls : List (Call α)) :
    let e := { opened with ready }
    let s := e.run calls
    (∀ moment,
      (s.mixer.voicesAfter moment).length ≤ Mixer.maxVoices ∧
      ((s.mixer.voicesAfter moment).map (·.id)).Nodup ∧
      ∀ v ∈ s.mixer.voicesAfter moment,
        (e.answers calls).count v.id = 1 ∧
        ∀ frame, v.releaseFrame = some frame → v.startFrame ≤ frame) ∧
    (∀ count, s.mixer.process? count = some (s.mixer.process count)) ∧
    s.mixer.frame = (e.rendered calls).length ∧
    ∀ later, s.mixer.frame ≤ (s.run later).mixer.frame := by
  intro e s
  obtain ⟨channels, rate, hmixer⟩ := ofDevice_mixer hopen
  have hmixer : e.mixer = .start ringCapacity channels rate := hmixer
  have hbounded : Mixer.Bounded s.mixer.voices := by
    refine run_bounded ?_ calls
    rw [hmixer]
    exact ⟨Nat.zero_le _, fun v hv => absurd hv List.not_mem_nil⟩
  have hfresh : Answered e [] := by
    refine ⟨List.Pairwise.nil, fun handle hhandle => absurd hhandle List.not_mem_nil, ?_⟩
    rw [hmixer]
    exact List.nil_sublist _
  have hanswered : Answered s (e.answers calls) := hfresh.run calls
  have hdistinct : (e.answers calls).Nodup := hanswered.increasing.imp Nat.ne_of_lt
  refine ⟨fun moment => ?_, fun count => ?_, ?_, fun later => ?_⟩
  · have hmoment : Mixer.Bounded (s.mixer.voicesAfter moment) := hbounded.foldl_apply _
    have hids := (s.mixer.ids_isPrefix_voicesAfter moment).sublist.trans hanswered.voices
    refine ⟨hmoment.few, hdistinct.sublist hids, fun v hv => ⟨?_, hmoment.ordered v hv⟩⟩
    exact List.nodup_iff_count_eq_one.1 hdistinct _ (hids.subset (List.mem_map_of_mem hv))
  · exact Mixer.process?_eq (hbounded.foldl_apply _).ordered count
  · have hframe := e.run_frame calls
    rw [hmixer, Mixer.start, Nat.zero_add] at hframe
    exact hframe
  · rw [s.run_frame later]
    exact Nat.le_add_right _ _

/-- More notes at once than there may be voices. The first one is released before it
begins, a release comes for a number that was not given out, and a note is heard for a
moment when there is no room for it any more. -/
def crowd : List (Call Float) :=
  .schedule 48 "t_bass" 1.0 0.5 :: .release 1 0.25 :: .release 500 0.0 ::
    (List.replicate 64 note ++ [.preview 60 "t_piano", .process 2])

/-- The engine over a stereo device before it was got ready. -/
def unprepared : Engine Float Float32 := { stereo with ready := false }

theorem crowd_within_bounds :
    let e : Engine Float Float32 := { unprepared with ready := true }
    let s := e.run crowd
    ofDevice (some ⟨48000, 2, none⟩) = .ok unprepared ∧
    (s.mixer.voices.length = Mixer.maxVoices ∧ (e.answers crowd).length = 66 ∧
      (s.mixer.voices.map fun v => (v.id, v.startFrame, v.releaseFrame)).head? =
        some (1, 48000, some 48000)) ∧
    (∀ v ∈ s.mixer.voices, (e.answers crowd).count v.id = 1) ∧
    s.mixer.process? 3 = some (s.mixer.process 3) ∧
    s.mixer.frame = (e.rendered crowd).length := by
  have hopen : ofDevice (some ⟨48000, 2, none⟩) = .ok unprepared := rfl
  have hrun := mixer_invariants hopen true crowd
  dsimp only at hrun ⊢
  obtain ⟨hmoments, hchecked, hframe, -⟩ := hrun
  have hnow := hmoments 0
  rw [Mixer.voicesAfter_zero] at hnow
  exact ⟨hopen, by decide +kernel, fun v hv => (hnow.2.2 v hv).1, hchecked 3, hframe⟩

end Engine

end NoteRoll
