import NoteRoll.Audio.Engine
import NoteRoll.Playback.Scheduler

/-!
# Voices that are released

The engine and the mixer share nothing but a ring of commands, and a ring that is full takes no
more. A note-on that is lost is never heard. A note-off that is lost is worse, since its voice
is held for ever.

Between two buffers the mixer is behind, so the invariants here are about the voices as they
will be when the ring has been drained. Of these exactly the ones are released whose release
the ring has taken: commands come out in the order they went in, so a release never overtakes
its start, and no two voices have a number in common.

That leaves the releases that the ring refuses. Calls that release each note right after they
start it, as those of playback do, never lose a voice to one of them, though the ring may well
be full. Half of what is in the ring then are starts, which are many more than there is room for
voices. So the note whose release comes too late has got no voice either.
-/

namespace NoteRoll

variable {α β : Type}

/-- What tells voices apart and when they are finished. Rendering leaves it alone. -/
structure Voice.Outline (α : Type) where
  id : Nat
  kind : VoiceKind α
  startFrame : Nat
  releaseFrame : Option Nat

def Voice.outline (v : Voice α β) : Voice.Outline α :=
  ⟨v.id, v.kind, v.startFrame, v.releaseFrame⟩

theorem Voice.isFinished_congr [Waveform α β] {v w : Voice α β} (h : v.outline = w.outline)
    (frame : Nat) (rate : α) : v.isFinished frame rate = w.isFinished frame rate := by
  obtain ⟨-, hkind, hstart, hrelease⟩ := Voice.Outline.mk.inj h
  simp only [isFinished, age, held, hkind, hstart, hrelease]

def SoundCommand.isStart : SoundCommand α β → Bool
  | .start .. => true
  | .release .. => false

namespace Mixer

theorem send_of_room {m : Mixer α β} (h : m.queue.length < m.capacity)
    (c : SoundCommand α β) : m.send c = (true, { m with queue := m.queue ++ [c] }) := if_pos h

theorem send_of_full {m : Mixer α β} (h : ¬ m.queue.length < m.capacity)
    (c : SoundCommand α β) : m.send c = (false, m) := if_neg h

theorem releaseVoice_ids (id frame : Nat) (voices : List (Voice α β)) :
    (releaseVoice id frame voices).map (·.id) = voices.map (·.id) := by
  induction voices with
  | nil => rfl
  | cons v vs ih =>
      rw [releaseVoice]
      split
      · rfl
      · rw [List.map_cons, ih, List.map_cons]

theorem releaseVoice_eq_map {voices : List (Voice α β)} (h : (voices.map (·.id)).Nodup)
    (id frame : Nat) :
    releaseVoice id frame voices =
      voices.map fun v => if v.id = id then v.releaseAt frame else v := by
  induction voices with
  | nil => rfl
  | cons v vs ih =>
      rw [List.map_cons, List.nodup_cons] at h
      rw [releaseVoice, List.map_cons]
      split
      · next hid =>
          -- No other voice has the number.
          have hrest : vs.map (fun w => if w.id = id then w.releaseAt frame else w) = vs := by
            refine (List.map_congr_left fun w hw => if_neg fun hwid => h.1 ?_).trans vs.map_id
            rw [hid, ← hwid]
            exact List.mem_map_of_mem hw
          rw [hrest]
      · rw [ih h.2]

variable [Waveform α β]

/-- The voices as they will be when the waiting commands have been carried out. -/
def drained (m : Mixer α β) : List (Voice α β) := m.queue.foldl apply m.voices

theorem drained_queue_append (m : Mixer α β) (c : SoundCommand α β) :
    drained { m with queue := m.queue ++ [c] } = apply m.drained c := List.foldl_append

/-- Of the starts in the ring only those are left out for which there is no room. -/
theorem le_length_foldl_apply (queue : List (SoundCommand α β)) (voices : List (Voice α β)) :
    min maxVoices (voices.length + queue.countP SoundCommand.isStart) ≤
      (queue.foldl apply voices).length := by
  induction queue generalizing voices with
  | nil => exact Nat.min_le_right _ _
  | cons c cs ih =>
      have hrest := ih (apply voices c)
      rw [List.foldl_cons, List.countP_cons]
      cases c with
      | start voice kind pitch gain frame =>
          rw [apply] at hrest ⊢
          split at hrest
          · next hroom =>
              rw [if_pos hroom]
              rw [List.length_append, List.length_singleton] at hrest
              simp only [SoundCommand.isStart, if_true]
              omega
          · next hfull =>
              rw [if_neg hfull]
              omega
      | release voice frame =>
          have hlength : (releaseVoice voice frame voices).length = voices.length := by
            simpa using congrArg List.length (releaseVoice_ids voice frame voices)
          rw [apply, hlength] at hrest
          simp only [SoundCommand.isStart, Bool.false_eq_true, if_false]
          exact hrest

variable [Sample β]

/-! ## Rendering -/

theorem render_outline (v : Voice α β) (frame : Nat) (rate : α) :
    (v.render frame rate).2.outline = v.outline := by
  rw [Voice.render]
  split
  · rfl
  · show (v.wave _ rate).2.outline = v.outline
    rw [Voice.wave.eq_def]
    split <;> rfl

theorem mixFrame_outlines (frame : Nat) (rate : α) (mixed : β) (voices : List (Voice α β)) :
    (mixFrame frame rate mixed voices).2.map Voice.outline = voices.map Voice.outline := by
  induction voices generalizing mixed with
  | nil => rfl
  | cons v vs ih =>
      show (v.render frame rate).2.outline :: (mixFrame frame rate _ vs).2.map Voice.outline = _
      rw [ih, render_outline, List.map_cons]

theorem renderFrames_outlines (rate : α) (count frame : Nat) (done : List β)
    (voices : List (Voice α β)) :
    (renderFrames rate count frame done voices).2.map Voice.outline =
      voices.map Voice.outline := by
  induction count generalizing frame done voices with
  | zero => rfl
  | succ count ih =>
      rw [renderFrames]
      exact (ih ..).trans (mixFrame_outlines frame rate 0 voices)

/-- The voices after a buffer are drained ones that are not finished. -/
theorem process_voices (m : Mixer α β) (count : Nat) :
    ∃ rendered : List (Voice α β), rendered.map Voice.outline = m.drained.map Voice.outline ∧
      (m.process count).mixer.voices =
        rendered.filter fun v => !v.isFinished (m.frame + count) (Scalar.ofNat m.rate) :=
  ⟨_, renderFrames_outlines _ _ _ _ _, rfl⟩

theorem exists_drained_of_process {m : Mixer α β} {count : Nat} {v : Voice α β}
    (hv : v ∈ (m.process count).mixer.drained) :
    ∃ w ∈ m.drained, w.id = v.id ∧ w.releaseFrame = v.releaseFrame := by
  obtain ⟨rendered, hsame, hvoices⟩ := m.process_voices count
  have hv : v ∈ (m.process count).mixer.voices := hv
  rw [hvoices] at hv
  have hmem := List.mem_map_of_mem (f := Voice.outline) (List.mem_filter.1 hv).1
  rw [hsame] at hmem
  obtain ⟨w, hw, houtline⟩ := List.mem_map.1 hmem
  exact ⟨w, hw, congrArg Voice.Outline.id houtline, congrArg Voice.Outline.releaseFrame houtline⟩

theorem process_ids_sublist (m : Mixer α β) (count : Nat) :
    ((m.process count).mixer.drained.map (·.id)).Sublist (m.drained.map (·.id)) := by
  obtain ⟨rendered, hsame, hvoices⟩ := m.process_voices count
  have hids : rendered.map (·.id) = m.drained.map (·.id) := by
    have h := congrArg (List.map Voice.Outline.id) hsame
    rwa [List.map_map, List.map_map] at h
  show ((m.process count).mixer.voices.map (·.id)).Sublist _
  rw [hvoices, ← hids]
  exact List.filter_sublist.map _

end Mixer

namespace Engine

variable [Waveform α β] [Sample β]

/-! ## Calls -/

/-- A call of the engine, or a buffer that its device asks for. -/
inductive Call (α : Type) where
  | schedule (pitch : Nat) (track : TrackId) (time gain : α)
  | preview (pitch : Nat) (track : TrackId)
  | release (handle : Handle) (time : α)
  | configure (tracks : List Track)
  | process (count : Nat)

def next (e : Engine α β) : Call α → Engine α β
  | .schedule pitch track time gain => (e.schedule pitch track time gain).2
  | .preview pitch track => e.preview pitch track
  | .release handle time => e.release handle time
  | .configure tracks => e.configure tracks
  | .process count => (e.pump count).2

def run (e : Engine α β) (calls : List (Call α)) : Engine α β := calls.foldl next e

def startCommand (e : Engine α β) (pitch : Nat) (track : TrackId) (time gain : α) :
    SoundCommand α β :=
  .start e.nextVoice (e.kindOf track) pitch (Waveform.toSample gain) (e.toFrame time)

variable {e : Engine α β}

omit [Sample β] in
theorem startVoice_of_room (h : e.mixer.queue.length < e.mixer.capacity) (pitch : Nat)
    (track : TrackId) (time gain : α) :
    e.startVoice pitch track time gain = (some e.nextVoice, { e with
      nextVoice := e.nextVoice + 1
      mixer := { e.mixer with
        queue := e.mixer.queue ++ [e.startCommand pitch track time gain] } }) := by
  simp only [startVoice, Mixer.send_of_room h, if_true, startCommand]

omit [Sample β] in
theorem startVoice_of_full (h : ¬ e.mixer.queue.length < e.mixer.capacity) (pitch : Nat)
    (track : TrackId) (time gain : α) :
    e.startVoice pitch track time gain = (none, { e with nextVoice := e.nextVoice + 1 }) := by
  simp only [startVoice, Mixer.send_of_full h, Bool.false_eq_true, if_false]

omit [Sample β] in
theorem release_of_room (h : e.mixer.queue.length < e.mixer.capacity) (handle : Handle)
    (time : α) : e.release handle time = { e with mixer := { e.mixer with
      queue := e.mixer.queue ++ [.release handle (e.toFrame time)] } } := by
  rw [release, Mixer.send_of_room h]

omit [Sample β] in
theorem release_of_full (h : ¬ e.mixer.queue.length < e.mixer.capacity) (handle : Handle)
    (time : α) : e.release handle time = e := by
  rw [release, Mixer.send_of_full h]

/-! ## Releases that the ring takes -/

/-- The voice whose release the ring takes in a call. A release of a voice that there has not
been yet does nothing. -/
def heeds (e : Engine α β) : Call α → Option Handle
  | .release handle _ =>
    if handle < e.nextVoice ∧ e.mixer.queue.length < e.mixer.capacity then some handle else none
  | .preview .. =>
    if e.ready = true ∧ e.mixer.queue.length + 1 < e.mixer.capacity then some e.nextVoice else none
  | .schedule .. | .configure _ | .process _ => none

omit [Waveform α β] [Sample β] in
theorem heeds_release {handle id : Handle} {time : α} :
    id ∈ (e.heeds (.release handle time)).toList ↔
      handle = id ∧ handle < e.nextVoice ∧ e.mixer.queue.length < e.mixer.capacity := by
  rw [Option.mem_toList, heeds, Option.ite_none_right_eq_some, Option.some_inj, And.comm]

def heeded (e : Engine α β) : List (Call α) → List Handle
  | [] => []
  | c :: cs => (e.heeds c).toList ++ (e.next c).heeded cs

/-- The drained voices have numbers of their own, and those that are released are the ones whose
releases the ring has taken. -/
structure Tallied (e : Engine α β) (heeded : List Handle) : Prop where
  distinct : (e.mixer.drained.map (·.id)).Nodup
  given : ∀ v ∈ e.mixer.drained, v.id < e.nextVoice
  released : ∀ v ∈ e.mixer.drained, v.releaseFrame.isSome = true ↔ v.id ∈ heeded
  known : ∀ handle ∈ heeded, handle < e.nextVoice

variable {taken : List Handle}

omit [Sample β] in
theorem Tallied.startVoice (h : Tallied e taken) (pitch : Nat) (track : TrackId)
    (time gain : α) : Tallied (e.startVoice pitch track time gain).2 taken := by
  have hknown : ∀ handle ∈ taken, handle < e.nextVoice + 1 := fun handle hh =>
    Nat.lt_succ_of_lt (h.known handle hh)
  have hgiven : ∀ v ∈ e.mixer.drained, v.id < e.nextVoice + 1 := fun v hv =>
    Nat.lt_succ_of_lt (h.given v hv)
  by_cases hroom : e.mixer.queue.length < e.mixer.capacity
  · rw [startVoice_of_room hroom]
    have hdrained := e.mixer.drained_queue_append (e.startCommand pitch track time gain)
    rw [startCommand, Mixer.apply] at hdrained
    split at hdrained
    · refine ⟨?_, ?_, ?_, hknown⟩ <;> dsimp only [startCommand] <;> rw [hdrained]
      · rw [List.map_append, List.nodup_append]
        refine ⟨h.distinct, List.pairwise_singleton _ _, fun id hid id' hid' => ?_⟩
        obtain ⟨v, hv, rfl⟩ := List.mem_map.1 hid
        rw [List.mem_singleton.1 hid']
        exact Nat.ne_of_lt (h.given v hv)
      · rw [List.forall_mem_append]
        exact ⟨hgiven, fun v hv => List.mem_singleton.1 hv ▸ Nat.lt_succ_self _⟩
      · rw [List.forall_mem_append]
        refine ⟨h.released, fun v hv => ?_⟩
        obtain rfl := List.mem_singleton.1 hv
        exact ⟨nofun, fun hmem => absurd (h.known _ hmem) (Nat.lt_irrefl _)⟩
    · refine ⟨?_, ?_, ?_, hknown⟩ <;> dsimp only [startCommand] <;> rw [hdrained]
      · exact h.distinct
      · exact hgiven
      · exact h.released
  · rw [startVoice_of_full hroom]
    exact ⟨h.distinct, hgiven, h.released, hknown⟩

omit [Sample β] in
/-- The voices after a release that the ring takes. -/
theorem Tallied.release_drained (h : Tallied e taken)
    (hroom : e.mixer.queue.length < e.mixer.capacity) (handle : Handle) (time : α) :
    (e.release handle time).mixer.drained = e.mixer.drained.map fun v =>
      if v.id = handle then v.releaseAt (e.toFrame time) else v := by
  rw [release_of_room hroom]
  exact (e.mixer.drained_queue_append _).trans (Mixer.releaseVoice_eq_map h.distinct _ _)

omit [Sample β] in
theorem Tallied.release (h : Tallied e taken) (handle : Handle) (time : α) :
    Tallied (e.release handle time) (taken ++ (e.heeds (.release handle time)).toList) := by
  by_cases hroom : e.mixer.queue.length < e.mixer.capacity
  · have hdrained := h.release_drained hroom handle time
    have hid (v : Voice α β) :
        (if v.id = handle then v.releaseAt (e.toFrame time) else v).id = v.id := by
      split <;> rfl
    refine ⟨?_, ?_, ?_, ?_⟩
    · rw [hdrained, List.map_map]
      exact (List.map_congr_left fun v _ => (hid v).symm).symm ▸ h.distinct
    · rw [hdrained, List.forall_mem_map]
      exact fun v hv => (hid v).symm ▸ h.given v hv
    · rw [hdrained, List.forall_mem_map]
      intro v hv
      have hlt := h.given v hv
      rw [hid, List.mem_append, heeds_release]
      split
      · next hsame => exact iff_of_true rfl (.inr ⟨hsame.symm, hsame ▸ hlt, hroom⟩)
      · next hother =>
          rw [h.released v hv]
          exact ⟨.inl, fun hmem => hmem.resolve_right fun htaken => hother htaken.1.symm⟩
    · rw [List.forall_mem_append]
      refine ⟨h.known, fun id hid => ?_⟩
      obtain ⟨rfl, hlt, -⟩ := heeds_release.1 hid
      exact hlt
  · have hnone : e.heeds (.release handle time) = none := if_neg fun h => hroom h.2
    rw [release_of_full hroom, hnone, Option.toList_none, List.append_nil]
    exact h

theorem Tallied.process (h : Tallied e taken) (count : Nat) :
    Tallied (e.next (.process count)) taken := by
  refine ⟨h.distinct.sublist (e.mixer.process_ids_sublist count), fun v hv => ?_, fun v hv => ?_,
    h.known⟩
  · obtain ⟨w, hw, hid, -⟩ := Mixer.exists_drained_of_process hv
    exact hid ▸ h.given w hw
  · obtain ⟨w, hw, hid, hrelease⟩ := Mixer.exists_drained_of_process hv
    rw [← hid, ← hrelease]
    exact h.released w hw

omit [Sample β] in
theorem Tallied.preview (h : Tallied e taken) (pitch : Nat) (track : TrackId) :
    Tallied (e.preview pitch track) (taken ++ (e.heeds (.preview pitch track)).toList) := by
  rw [Engine.preview]
  split
  · next hready =>
      have hstarted := h.startVoice pitch track e.now previewGain
      by_cases hroom : e.mixer.queue.length < e.mixer.capacity
      · rw [startVoice_of_room hroom] at hstarted ⊢
        have hreleased := hstarted.release e.nextVoice (e.now + previewSeconds)
        -- The release comes right after the start, for which there was room.
        have hheeds : e.heeds (.preview pitch track) = heeds { e with
            nextVoice := e.nextVoice + 1
            mixer := { e.mixer with
              queue := e.mixer.queue ++ [e.startCommand pitch track e.now previewGain] } }
            (.release e.nextVoice (e.now + previewSeconds)) := by
          simp [heeds, hready]
        rw [hheeds]
        exact hreleased
      · have hnone : e.heeds (.preview pitch track) = none := if_neg fun h => hroom (by omega)
        rw [startVoice_of_full hroom] at hstarted ⊢
        rw [hnone, Option.toList_none, List.append_nil]
        exact hstarted
  · next hready =>
      have hnone : e.heeds (.preview pitch track) = none := if_neg fun h => hready h.1
      rw [hnone, Option.toList_none, List.append_nil]
      exact h

theorem Tallied.next (h : Tallied e taken) (c : Call α) :
    Tallied (e.next c) (taken ++ (e.heeds c).toList) := by
  cases c with
  | schedule pitch track time gain =>
      rw [heeds, Option.toList_none, List.append_nil, Engine.next, Engine.schedule]
      split
      · exact h.startVoice pitch track time gain
      · exact h
  | preview pitch track => exact h.preview pitch track
  | release handle time => exact h.release handle time
  | configure tracks =>
      rw [heeds, Option.toList_none, List.append_nil]
      exact ⟨h.distinct, h.given, h.released, h.known⟩
  | process count =>
      rw [heeds, Option.toList_none, List.append_nil]
      exact h.process count

theorem Tallied.run (h : Tallied e taken) (calls : List (Call α)) :
    Tallied (e.run calls) (taken ++ e.heeded calls) := by
  induction calls generalizing e taken with
  | nil =>
      rw [heeded, List.append_nil]
      exact h
  | cons c cs ih =>
      rw [heeded, ← List.append_assoc]
      exact ih (h.next c)

/-! ## Releases that come right after their starts -/

/-- Each handle that is given out is released by the next call, or by the next one but for
buffers and settings. What is asked for depends on the handle that waits. -/
def Prompt (e : Engine α β) (waiting : Option Handle) : List (Call α) → Prop
  | [] => waiting = none
  | .schedule pitch track time gain :: cs =>
    waiting = none ∧ (e.next (.schedule pitch track time gain)).Prompt
      (e.schedule pitch track time gain).1 cs
  | .preview pitch track :: cs =>
    waiting = none ∧ (e.next (.preview pitch track)).Prompt none cs
  | .release handle time :: cs =>
    waiting = some handle ∧ (e.next (.release handle time)).Prompt none cs
  | .configure tracks :: cs => (e.next (.configure tracks)).Prompt waiting cs
  | .process count :: cs => (e.next (.process count)).Prompt waiting cs

/-- Every drained voice is released, or it is the one whose handle waits. In the ring there is a
start for each release but the first. -/
structure Paired (e : Engine α β) (waiting : Option Handle) : Prop where
  capacity : e.mixer.capacity = ringCapacity
  starts : e.mixer.queue.length + waiting.toList.length ≤
    2 * e.mixer.queue.countP SoundCommand.isStart + 1
  released : ∀ v ∈ e.mixer.drained, v.releaseFrame.isSome = true ∨ waiting = some v.id
  /-- If the ring will refuse the release, there is no voice to be released. -/
  voiceless : e.mixer.capacity ≤ e.mixer.queue.length →
    ∀ v ∈ e.mixer.drained, waiting ≠ some v.id

omit [Sample β] in
theorem Paired.startVoice (h : Paired e none) (htally : Tallied e taken) (pitch : Nat)
    (track : TrackId) (time gain : α) :
    Paired (e.startVoice pitch track time gain).2 (e.startVoice pitch track time gain).1 := by
  have hcapacity := h.capacity
  have hstarts := h.starts
  rw [Option.toList_none, List.length_nil] at hstarts
  have hreleased : ∀ v ∈ e.mixer.drained, v.releaseFrame.isSome = true := fun v hv =>
    (h.released v hv).resolve_right nofun
  by_cases hroom : e.mixer.queue.length < e.mixer.capacity
  · rw [startVoice_of_room hroom]
    have hdrained := e.mixer.drained_queue_append (e.startCommand pitch track time gain)
    refine ⟨hcapacity, ?_, ?_, ?_⟩ <;> dsimp only
    · rw [List.length_append, List.countP_append]
      simp only [Option.toList_some, List.length_singleton, List.countP_singleton, startCommand,
        SoundCommand.isStart, if_true]
      omega
    · rw [hdrained, startCommand, Mixer.apply]
      split
      · rw [List.forall_mem_append]
        refine ⟨fun v hv => .inl (hreleased v hv), fun v hv => ?_⟩
        rw [List.mem_singleton.1 hv]
        exact .inr rfl
      · exact fun v hv => .inl (hreleased v hv)
    · rw [List.length_append, List.length_singleton]
      intro hfull
      -- The starts that the ring holds take all the places there are for voices.
      have hplaces := Mixer.le_length_foldl_apply e.mixer.queue e.mixer.voices
      have hnone : ¬ e.mixer.drained.length < Mixer.maxVoices := by
        rw [Mixer.drained]
        simp only [ringCapacity, Mixer.maxVoices] at hcapacity hplaces ⊢
        omega
      rw [hdrained, startCommand, Mixer.apply, if_neg hnone]
      intro v hv hid
      have hlt := htally.given v hv
      rw [Option.some.inj hid] at hlt
      exact Nat.lt_irrefl _ hlt
  · rw [startVoice_of_full hroom]
    exact ⟨h.capacity, h.starts, h.released, h.voiceless⟩

omit [Sample β] in
theorem Paired.release {handle : Handle} (h : Paired e (some handle)) (htally : Tallied e taken)
    (time : α) : Paired (e.release handle time) none := by
  have hstarts := h.starts
  rw [Option.toList_some, List.length_singleton] at hstarts
  by_cases hroom : e.mixer.queue.length < e.mixer.capacity
  · have hdrained := htally.release_drained hroom handle time
    refine ⟨?_, ?_, ?_, fun _ _ _ => nofun⟩
    · rw [release_of_room hroom]
      exact h.capacity
    · rw [release_of_room hroom]
      dsimp only
      rw [List.length_append, List.countP_append]
      simp only [Option.toList_none, List.length_singleton, List.length_nil,
        List.countP_singleton, SoundCommand.isStart, Bool.false_eq_true, if_false]
      omega
    · rw [hdrained, List.forall_mem_map]
      intro v hv
      split
      · exact .inl rfl
      · next hid =>
          refine .inl ((h.released v hv).resolve_right fun hwaits => hid ?_)
          exact (Option.some.inj hwaits).symm
  · rw [release_of_full hroom]
    refine ⟨h.capacity, ?_, fun v hv => ?_, fun _ _ _ => nofun⟩
    · rw [Option.toList_none, List.length_nil]
      omega
    · exact .inl ((h.released v hv).resolve_right (h.voiceless (Nat.not_lt.1 hroom) v hv))

theorem Paired.process {waiting : Option Handle} (h : Paired e waiting) (count : Nat) :
    Paired (e.next (.process count)) waiting := by
  refine ⟨h.capacity, ?_, fun v hv => ?_, fun hfull => ?_⟩
  · show 0 + waiting.toList.length ≤ 2 * 0 + 1
    cases waiting <;> simp
  · obtain ⟨w, hw, hid, hrelease⟩ := Mixer.exists_drained_of_process hv
    rw [← hid, ← hrelease]
    exact h.released w hw
  · have hfull : e.mixer.capacity ≤ 0 := hfull
    rw [h.capacity] at hfull
    exact absurd hfull (by decide)

omit [Sample β] in
theorem Paired.preview (h : Paired e none) (htally : Tallied e taken) (pitch : Nat)
    (track : TrackId) : Paired (e.preview pitch track) none := by
  rw [Engine.preview]
  split
  · have hstarted := h.startVoice htally pitch track e.now previewGain
    have htally := htally.startVoice pitch track e.now previewGain
    generalize e.startVoice pitch track e.now previewGain = started at hstarted htally ⊢
    obtain ⟨voice, started⟩ := started
    cases voice with
    | none => exact hstarted
    | some voice => exact hstarted.release htally _
  · exact h

theorem Paired.run {waiting : Option Handle} (h : Paired e waiting) (htally : Tallied e taken)
    {calls : List (Call α)} (hprompt : e.Prompt waiting calls) : Paired (e.run calls) none := by
  induction calls generalizing e waiting taken with
  | nil =>
      obtain rfl : waiting = none := hprompt
      exact h
  | cons c cs ih =>
      have hnext := htally.next c
      cases c with
      | schedule pitch track time gain =>
          obtain ⟨rfl, hlater⟩ := hprompt
          refine ih ?_ hnext hlater
          rw [Engine.next, Engine.schedule]
          split
          · exact h.startVoice htally pitch track time gain
          · exact h
      | preview pitch track =>
          obtain ⟨rfl, hlater⟩ := hprompt
          exact ih (h.preview htally pitch track) hnext hlater
      | release handle time =>
          obtain ⟨rfl, hlater⟩ := hprompt
          exact ih (h.release htally time) hnext hlater
      | configure tracks =>
          exact ih ⟨h.capacity, h.starts, h.released, h.voiceless⟩ hnext hprompt
      | process count => exact ih (h.process count) hnext hprompt

/-! ## Playback -/

theorem run_append (e : Engine α β) (calls later : List (Call α)) :
    e.run (calls ++ later) = (e.run calls).run later := List.foldl_append

theorem Prompt.append {waiting : Option Handle} {calls later : List (Call α)}
    (h : e.Prompt waiting calls) (hlater : (e.run calls).Prompt none later) :
    e.Prompt waiting (calls ++ later) := by
  induction calls generalizing e waiting with
  | nil =>
      obtain rfl : waiting = none := h
      exact hlater
  | cons c cs ih =>
      cases c with
      | schedule | preview | release => exact ⟨h.1, ih h.2 hlater⟩
      | configure | process => exact ih h hlater

omit [Sample β] in
theorem openReady_mixer {device : Option Device} (hopen : openReady device = .ok e) :
    ∃ channels rate, e.mixer = .start ringCapacity channels rate := by
  cases device with
  | none => cases hopen
  | some d =>
      obtain ⟨rate, channels, failure⟩ := d
      rcases failure with _ | ⟨_ | _ | _, reason⟩
      · cases hopen
        exact ⟨channels, rate, rfl⟩
      all_goals cases hopen

/-- An engine over a stereo device. -/
def stereo : Engine Float Float32 where
  mixer := .start ringCapacity 2 48000
  channels := 2
  nextVoice := 1
  voicing := voicingOf Track.defaults
  ready := true

/-- A note at the beginning. -/
def note : Call Float := .schedule 60 "t_piano" 0.0 1.0

/-- So many notes are in the ring. The first of them will have a voice. -/
structure Flooded (n : Nat) (e : Engine Float Float32) : Prop where
  ready : e.ready = true
  nextVoice : e.nextVoice = n + 1
  voicing : e.voicing = stereo.voicing
  clock : e.mixer.frame = 0 ∧ e.mixer.rate = 48000
  queue : e.mixer.queue.length = n ∧ e.mixer.capacity = ringCapacity
  first : if n = 0 then e.mixer.drained = [] else
    ∃ v ∈ e.mixer.drained, v.outline = ⟨1, .tone, 0, none⟩

theorem Flooded.next {n : Nat} {e : Engine Float Float32} (h : Flooded n e)
    (hn : n < ringCapacity) :
    (e.schedule 60 "t_piano" 0.0 1.0).1 = some (n + 1) ∧ Flooded (n + 1) (e.next note) := by
  obtain ⟨hframe, hrate⟩ := h.clock
  obtain ⟨hlength, hcapacity⟩ := h.queue
  have hroom : e.mixer.queue.length < e.mixer.capacity := by omega
  have hkind : e.kindOf "t_piano" = .tone := by
    rw [kindOf, h.voicing]
    rfl
  have htime : e.toFrame 0.0 = 0 := by
    rw [toFrame, hrate]
    decide +kernel
  have hcommand : e.startCommand 60 "t_piano" 0.0 1.0 =
      .start (n + 1) .tone 60 (Waveform.toSample 1.0) 0 := by
    rw [startCommand, hkind, htime, h.nextVoice]
  rw [note, Engine.next, schedule, if_pos h.ready, startVoice_of_room hroom, h.nextVoice,
    hcommand]
  refine ⟨rfl, h.ready, rfl, h.voicing, h.clock, ⟨?_, hcapacity⟩, ?_⟩
  · rw [List.length_append, List.length_singleton, hlength]
  · rw [if_neg (Nat.succ_ne_zero n), Mixer.drained_queue_append, Mixer.apply]
    have hfirst := h.first
    split at hfirst
    · next hzero =>
        rw [hfirst, hzero]
        exact ⟨_, List.mem_singleton.2 rfl, rfl⟩
    · obtain ⟨v, hv, hsame⟩ := hfirst
      refine ⟨v, ?_, hsame⟩
      split
      · exact List.mem_append_left _ hv
      · exact hv

end Engine

end NoteRoll
