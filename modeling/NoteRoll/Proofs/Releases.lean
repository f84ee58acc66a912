import NoteRoll.Proofs.Punctuality
import NoteRoll.Proofs.Rounding

/-!
# When notes are released

A note that is handed over is released by the very next call, at a time that is told from its onset
and its length. Its start is told from the onset and from the time of the tick. The two have nothing
to do with each other when a tick is late: the start moves up to the tick, the release stays where
it is, and a note whose time is over by then is released before it starts.

That is all that can happen. A release is never before the onset, since a length and a tail are
added to it and rounding does not go back behind it. So it is before the start only if the start is
not the onset, and then it is before the time of the tick. Whether it is can be told from the note
and the tick alone, whatever was handed over before and whether the output was ready.

Ticks that keep pace are never that late: only the first of them finds notes that have begun, and
the tail is longer than what such a note may have begun before the anchor. `paced_releases` is a
result in its own right. It says of the calls what the exact condition does not, that playback as
it is meant to be ticked never comes to release a note before its start.
-/

namespace NoteRoll

namespace Scheduler

section Releases

variable {σ α : Type} [Scalar α]

/-! ## One note -/

section Laws

variable [Scalar.OrderedSums α]

/-- A note that has a length is not released before its onset. -/
theorem not_releaseTime_lt_onset {c : BeatClock α} (hbeat : 0 < c.secondsPerBeat) {n : Note α}
    (hn : 0 < n.duration) : ¬ releaseTime c n < onset c n := by
  intro hlt
  have hlength : ¬ n.duration * c.secondsPerBeat < 0 :=
    Scalar.OrderedSums.mul_not_neg (Scalar.Ordered.lt_asymm hn) (Scalar.Ordered.lt_asymm hbeat)
  -- What is below something is a number, and so is all that it is the sum of.
  have hrelease := (Scalar.Ordered.numbers_of_lt hlt).1
  have htail : onset c n + n.duration * c.secondsPerBeat ≤ releaseTime c n :=
    Scalar.OrderedSums.le_add Scalar.OrderedSums.tenth_not_neg hrelease
  have hend := Scalar.Ordered.lt_of_le_of_lt htail hlt
  have honset : onset c n ≤ onset c n + n.duration * c.secondsPerBeat :=
    Scalar.OrderedSums.le_add hlength (Scalar.Ordered.numbers_of_lt hend).1
  have habsurd := Scalar.Ordered.lt_of_lt_of_le hend honset
  exact Scalar.Ordered.lt_asymm habsurd habsurd

/-- A release is before the start exactly if it is before the tick. -/
theorem releaseTime_lt_start_iff {c : BeatClock α} (hbeat : 0 < c.secondsPerBeat) {n : Note α}
    (hn : 0 < n.duration) (now : α) :
    releaseTime c n < Scalar.larger (onset c n) now ↔ releaseTime c n < now := by
  rw [Scalar.Ordered.lt_larger]
  exact or_iff_right (not_releaseTime_lt_onset hbeat hn)

end Laws

/-! ## Runs -/

variable [SoundOutput σ α]

/-- Playback of any notes that have a length, at any tempo, over any ticks and whatever the
output does meanwhile. The calls that are made are those of the notes handed over, one after the
other. Each is started at its onset, or at the time of the tick if that is later; if there is a
handle, the next call releases it, and no other does. That is never before the onset of the note,
and before its start exactly if it is before the time of the tick. -/
theorem release_follows_start [Scalar.OrderedSums α] (notes : List (Note α)) (endBeat : α)
    {c : BeatClock α} (timing : Timing α) (hnotes : ∀ n ∈ notes, 0 < n.duration)
    (hbeat : 0 < c.secondsPerBeat) (out : Logged σ α) (ticks : List (Tick σ α)) :
    let s := start notes endBeat c timing
    ∃ voices,
      (s.run out (ticks.map Tick.logged)).2.calls = out.calls ++ voices.flatten ∧
      List.Forall₂ (fun p v => ∃ handle, let starts := Scalar.larger (onset c p.2) p.1
          v = .schedule p.2.pitch p.2.track starts (velocityGain p.2.velocity) handle ::
            (handle.map fun h => .release h (releaseTime c p.2)).toList ∧
          ¬ releaseTime c p.2 < onset c p.2 ∧
          (releaseTime c p.2 < starts ↔ releaseTime c p.2 < p.1))
        (s.handed out (ticks.map Tick.logged)) voices := by
  intro s
  have hlengths : ∀ p ∈ s.handed out (ticks.map Tick.logged), 0 < p.2.duration := fun p hp =>
    hnotes p.2 ((List.mergeSort_perm notes _).mem_iff.1 (mem_pending_of_mem_handed hp))
  obtain ⟨voices, hcalls, hvoices⟩ := run_logs s out ticks
  refine ⟨voices, hcalls, ((List.forall₂_and_left _ _).2 ⟨hlengths, hvoices⟩).imp fun p v hv => ?_⟩
  obtain ⟨hlength, handle, rfl⟩ := hv
  exact ⟨handle, rfl, not_releaseTime_lt_onset hbeat hlength,
    releaseTime_lt_start_iff hbeat hlength p.1⟩

end Releases

/-! ## Ticks that keep pace -/

/-- What ticks that keep pace hand over is not released before it is started, if the first of them
comes no more than a twentieth of a second after the anchor. -/
theorem start_le_release_of_paced {σ : Type} [SoundOutput σ Rat] {timing : Timing Rat}
    (hvalid : timing.Validated) {notes : List (Note Rat)} {endBeat : Rat} {c : BeatClock Rat}
    (hnotes : ∀ n ∈ notes, 0 < n.duration) (hbeat : 0 < c.secondsPerBeat) {out : σ}
    {first : Tick σ Rat} {later : List (Tick σ Rat)}
    (hready : (start notes endBeat c timing).attended out (first :: later) = true)
    (hpace : Paced timing.tick.seconds (first :: later))
    (hfirst : first.now ≤ c.audioOrigin + 1 / 20) :
    ∀ p ∈ (start notes endBeat c timing).handed out (first :: later),
      Scalar.larger (onset c p.2) p.1 ≤ releaseTime c p.2 := by
  intro p hp
  have hlength : 0 < p.2.duration :=
    hnotes p.2 ((List.mergeSort_perm notes _).mem_iff.1 (mem_pending_of_mem_handed hp))
  have honset := not_lt.1 (not_releaseTime_lt_onset hbeat hlength)
  have hscaled : 0 < p.2.duration * c.secondsPerBeat := mul_pos hlength hbeat
  rw [Scalar.larger_eq_max]
  refine max_le honset ?_
  rcases handed_by_first (s := start notes endBeat c timing) hbeat (byStart_byOnset notes)
    hvalid.tick_lt hready hpace p hp with ⟨t, ht, hnow, hn⟩ | hintime
  · obtain rfl : first = t := Option.some.inj ht
    -- What the first tick finds began at most a twentieth before the anchor.
    have htimely := timely_iff.1 (timely_of_mem_batch hn)
    have htolerance : (lateTolerance : Rat) = 1 / 20 := by norm_num [lateTolerance]
    have htail : (releaseTail : Rat) = 1 / 10 := by norm_num [releaseTail]
    rw [htolerance] at htimely
    rw [releaseTime, htail, ← hnow]
    have horigin : c.audioOrigin - 1 / 20 ≤ onset c p.2 := htimely
    linarith
  · exact hintime.trans honset

/-- Playback by a timing that was checked, over ticks that find the output ready, do not go back,
follow each other within the tick of that timing and begin no more than a twentieth of a second
after the anchor. Of all the calls that are made, none releases a note before its start. -/
theorem paced_releases {σ : Type} [SoundOutput σ Rat] {timing : Timing Rat}
    (hvalid : timing.Validated) (notes : List (Note Rat)) (endBeat : Rat) {c : BeatClock Rat}
    (hnotes : ∀ n ∈ notes, 0 < n.duration) (hbeat : 0 < c.secondsPerBeat) (out : Logged σ Rat)
    (first : Tick σ Rat) (later : List (Tick σ Rat))
    (hready : (start notes endBeat c timing).attended out
      ((first :: later).map Tick.logged) = true)
    (hpace : Paced timing.tick.seconds (first :: later))
    (hfirst : first.now ≤ c.audioOrigin + 1 / 20) :
    let s := start notes endBeat c timing
    let ticks := (first :: later).map Tick.logged
    ∃ voices,
      (s.run out ticks).2.calls = out.calls ++ voices.flatten ∧
      List.Forall₂ (fun p v => ∃ handle, v = callsFor c p.1 handle p.2 ∧
          Scalar.larger (onset c p.2) p.1 ≤ releaseTime c p.2)
        (s.handed out ticks) voices := by
  intro s ticks
  have hintime := start_le_release_of_paced hvalid hnotes hbeat hready hpace.logged hfirst
  obtain ⟨voices, hcalls, hvoices⟩ := run_logs s out (first :: later)
  refine ⟨voices, hcalls, ((List.forall₂_and_left _ _).2 ⟨hintime, hvoices⟩).imp fun p v hv => ?_⟩
  obtain ⟨htime, handle, rfl⟩ := hv
  exact ⟨handle, rfl, htime⟩

/-! ## An output that is ready late -/

/-- A note of one beat, and a long one after it. -/
def shortLong : List (Note Float) :=
  [.ofFields 1 60 0.0 1.0 100 "t_piano", .ofFields 2 62 2.0 16.0 90 "t_bass"]

/-- The output is ready at the second tick only. -/
def lateReady : List (Tick (Recorder Float) Float) :=
  [⟨id, 0.0⟩, ⟨fun r => { r with ready := true }, 5.0⟩]

theorem byOnset_shortLong : byOnset shortLong = shortLong :=
  List.mergeSort_of_pairwise (by decide)

/-- Both notes are handed over at five seconds; the time of the first is over by then. -/
theorem shortLong_releases :
    let clock : BeatClock Float := ⟨0.0, 0.0, 0.5⟩
    let s := start shortLong 18.0 clock .standard
    let out : Logged (Recorder Float) Float := ⟨.start false 0.0, []⟩
    let ticks := lateReady.map Tick.logged
    (∀ n ∈ shortLong, 0 < n.duration) ∧ 0 < clock.secondsPerBeat ∧
    (s.handed out ticks).map (fun p => (p.1, p.2.id, decide (releaseTime clock p.2 < p.1))) =
      [(5.0, 1, true), (5.0, 2, false)] ∧
    ∃ voices, (s.run out ticks).2.calls = voices.flatten ∧
      List.Forall₂ (fun p v => ∃ handle time gain,
          v = .schedule p.2.pitch p.2.track time gain handle ::
            (handle.map fun h => .release h (releaseTime clock p.2)).toList ∧
          ¬ releaseTime clock p.2 < onset clock p.2 ∧
          (releaseTime clock p.2 < time ↔ releaseTime clock p.2 < p.1))
        (s.handed out ticks) voices := by
  intro clock s out ticks
  have hnotes : ∀ n ∈ shortLong, 0 < n.duration := by decide +kernel
  have hbeat : 0 < clock.secondsPerBeat := by decide +kernel
  have hs : s = { s with pending := shortLong } := by
    rw [← byOnset_shortLong]
    rfl
  obtain ⟨voices, hcalls, hvoices⟩ :=
    release_follows_start shortLong 18.0 .standard hnotes hbeat out lateReady
  refine ⟨hnotes, hbeat, ?_, voices, hcalls, hvoices.imp fun p v hv => ?_⟩
  · rw [hs]
    decide +kernel
  · obtain ⟨handle, hv⟩ := hv
    exact ⟨handle, _, _, hv⟩

/-- The first of the notes is started at five seconds, and the next call releases it at six tenths
of a second. -/
theorem shortLong_released_before_start :
    let clock : BeatClock Float := ⟨0.0, 0.0, 0.5⟩
    let s := start shortLong 18.0 clock .standard
    let out : Logged (Recorder Float) Float := ⟨.start false 0.0, []⟩
    (∀ n ∈ shortLong, 0 < n.duration) ∧ 0 < clock.secondsPerBeat ∧
    (lateReady.map (·.now)).Pairwise (· ≤ ·) ∧
    (s.run out (lateReady.map Tick.logged)).2.calls =
      [.schedule 60 "t_piano" 5.0 (velocityGain 100) (some 1), .release 1 0.6,
        .schedule 62 "t_bass" 5.0 (velocityGain 90) (some 2), .release 2 9.1] ∧
    (0.6 : Float) < 5.0 := by
  intro clock s out
  have hs : s = { s with pending := shortLong } := by
    rw [← byOnset_shortLong]
    rfl
  refine ⟨by decide +kernel, by decide +kernel, by decide +kernel, ?_, by decide +kernel⟩
  rw [hs]
  decide +kernel

end Scheduler

end NoteRoll
