import NoteRoll.Decimal.Exact
import NoteRoll.Proofs.Dispatch

/-!
# A playback that finished has played everything

The end of a playback is decided in beats: the beat of the tick has to have passed
the latest end of all notes of the document, heard or not, by a margin. What is
handed over is decided in seconds: the onset of a note has to lie within the reach
of the tick. That the first implies the second, for every note and in the same
tick, is `OnCourse.finished_reaches`; it needs that notes last, that the tempo is
positive and that the margin is not negative.

Ticks and edits come in any order after the press of the key that starts playing,
and none of the edits is heard.
-/

namespace NoteRoll

/-- The calls that some notes are played by one after the other, each from the time
of a tick on. -/
inductive Plays (c : BeatClock Rat) (reached : Note Rat → Option Rat) :
    List (Note Rat) → List (SoundCall Rat) → Prop where
  | nil : Plays c reached [] []
  | cons {n : Note Rat} {notes : List (Note Rat)} {calls : List (SoundCall Rat)} {now : Rat}
      (handle : Option Handle) (hn : reached n = some now) (h : Plays c reached notes calls) :
      Plays c reached (n :: notes) (voice c now handle n ++ calls)

namespace Plays

variable {c : BeatClock Rat} {reached reached' : Note Rat → Option Rat}
  {notes notes' : List (Note Rat)} {calls calls' : List (SoundCall Rat)}

theorem of_voices {now : Rat} {voices : List (List (SoundCall Rat))}
    (h : List.Forall₂ (fun n v => ∃ handle, v = Scheduler.callsFor c now handle n) notes voices) :
    Plays c (fun _ => some now) notes voices.flatten := by
  induction h with
  | nil => exact .nil
  | cons hv _ ih =>
      obtain ⟨handle, rfl⟩ := hv
      rw [Scheduler.callsFor_eq_voice]
      exact .cons handle rfl ih

theorem append (h : Plays c reached notes calls) (h' : Plays c reached notes' calls') :
    Plays c reached (notes ++ notes') (calls ++ calls') := by
  induction h with
  | nil => exact h'
  | cons handle hn _ ih =>
      rw [List.append_assoc]
      exact .cons handle hn ih

theorem congr (h : Plays c reached notes calls)
    (hsame : ∀ n ∈ notes, reached' n = reached n) : Plays c reached' notes calls := by
  induction h with
  | nil => exact .nil
  | cons handle hn _ ih =>
      rw [List.forall_mem_cons] at hsame
      exact .cons handle (hsame.1.trans hn) (ih hsame.2)

theorem isOfNote (h : Plays c reached notes calls) : ∀ call ∈ calls, call.isOfNote = true := by
  induction h with
  | nil => exact fun call hcall => absurd hcall List.not_mem_nil
  | cons handle _ _ ih =>
      intro call hcall
      rcases List.mem_append.1 hcall with hcall | hcall
      · rcases List.mem_cons.1 hcall with rfl | hcall
        · rfl
        · obtain ⟨h, -, rfl⟩ := Option.map_eq_some_iff.1 (Option.mem_toList.1 hcall)
          rfl
      · exact ih call hcall

end Plays

namespace Scheduler

variable {σ : Type} [SoundOutput σ Rat]

theorem playAll_ofNotes (c : BeatClock Rat) (now : Rat) (notes : List (Note Rat))
    (out : Logged σ Rat) :
    ∃ calls, (playAll c now notes out).ofNotes = out.ofNotes ++ calls ∧
      Plays c (fun _ => some now) notes calls := by
  obtain ⟨voices, hcalls, hvoices⟩ := playAll_logs c now notes out
  have hplays := Plays.of_voices hvoices
  refine ⟨voices.flatten, ?_, hplays⟩
  rw [Logged.ofNotes, hcalls, List.filter_append, List.filter_eq_self.2 hplays.isOfNote]
  rfl

/-! ## A scheduler that can finish -/

/-- A scheduler whose notes are in order, have all still to be handed over, and
begin before the beat at which it finishes. -/
structure OnCourse (s : Scheduler Rat) : Prop where
  forward : 0 < s.clock.secondsPerBeat
  ahead : 0 ≤ s.lookahead
  sorted : ByStart s.pending
  distinct : (s.pending.map (·.id)).Nodup
  unseen : ∀ n ∈ s.pending, n.id ∉ s.dispatched
  within : ∀ n ∈ s.pending, n.start ≤ s.finishBeat

/-- The notes that a tick hands over, of a scheduler on its course. -/
def reachedBy (s : Scheduler Rat) (now : Rat) : List (Note Rat) :=
  (s.pending.takeWhile (inReach s.clock (now + s.lookahead))).filter (timely s.clock)

/-- When playback finishes, no note is out of reach. -/
theorem OnCourse.finished_reaches {s : Scheduler Rat} (h : s.OnCourse) {now : Rat}
    (hfinished : s.finishBeat ≤ s.clock.beatAt now) :
    s.pending.dropWhile (inReach s.clock (now + s.lookahead)) = [] := by
  rw [List.dropWhile_eq_nil_iff]
  intro n hn
  rw [inReach_iff]
  have hbeat : n.start ≤ s.clock.beatOrigin +
      (now - s.clock.audioOrigin) / s.clock.secondsPerBeat := (h.within n hn).trans hfinished
  have hbeats : n.start - s.clock.beatOrigin ≤
      (now - s.clock.audioOrigin) / s.clock.secondsPerBeat := by linarith
  have hseconds : (n.start - s.clock.beatOrigin) * s.clock.secondsPerBeat ≤
      now - s.clock.audioOrigin := (le_div_iff₀ h.forward).1 hbeats
  show s.clock.audioOrigin + (n.start - s.clock.beatOrigin) * s.clock.secondsPerBeat ≤
    now + s.lookahead
  have hahead := h.ahead
  linarith

theorem OnCourse.fresh_eq {s : Scheduler Rat} (h : s.OnCourse) (now : Rat) :
    fresh s.dispatched ((s.pending.takeWhile (inReach s.clock (now + s.lookahead))).filter
      (timely s.clock)) = s.reachedBy now := by
  have hpart : (s.reachedBy now).Sublist s.pending :=
    List.filter_sublist.trans (List.takeWhile_sublist _)
  exact fresh_eq_self (h.distinct.sublist (hpart.map _))
    fun n hn => h.unseen n (hpart.subset hn)

/-- What is out of reach of a tick is on course as it was. -/
theorem OnCourse.passed {s : Scheduler Rat} (h : s.OnCourse) (now : Rat) :
    (s.passed (now + s.lookahead) (s.reachedBy now)).OnCourse := by
  have hparts := List.takeWhile_append_dropWhile (p := inReach s.clock (now + s.lookahead))
    (l := s.pending)
  have hrest : (s.pending.dropWhile (inReach s.clock (now + s.lookahead))).Sublist s.pending :=
    List.dropWhile_sublist _
  have hdistinct := h.distinct
  rw [← hparts, List.map_append, List.nodup_append] at hdistinct
  refine ⟨h.forward, h.ahead, List.Pairwise.sublist hrest h.sorted,
    h.distinct.sublist (hrest.map _), fun n hn hseen => ?_,
    fun n hn => h.within n (hrest.subset hn)⟩
  rcases List.mem_append.1 hseen with hnow | hbefore
  · rw [List.mem_reverse] at hnow
    have htaken := ((List.filter_sublist (p := timely s.clock)).map (·.id)).subset hnow
    exact hdistinct.2.2 n.id htaken n.id (List.mem_map_of_mem hn) rfl
  · exact h.unseen n (hrest.subset hn) hbefore

/-- One tick of a scheduler on its course, of an output that is ready. -/
theorem OnCourse.tick {s : Scheduler Rat} (h : s.OnCourse) (now : Rat) {out : Logged σ Rat}
    (hready : SoundOutput.isReady out = true) :
    ∃ report, report.finished = decide (s.finishBeat ≤ s.clock.beatAt now) ∧
      s.tick now out = (some report, s.passed (now + s.lookahead) (s.reachedBy now),
        playAll s.clock now (s.reachedBy now) out) := by
  have hsweep := sweep_eq s.clock now (now + s.lookahead) s.pending s.dispatched out
  rw [h.fresh_eq now] at hsweep
  rw [Scheduler.tick, if_pos hready, hsweep]
  exact ⟨_, rfl, rfl⟩

/-- The time of the first of some ticks that reaches a note. -/
def firstReach (c : BeatClock Rat) (lookahead : Rat) (times : List Rat) (n : Note Rat) :
    Option Rat :=
  times.find? fun now => decide (c.timeOf n.start ≤ now + lookahead)

theorem firstReach_near {c : BeatClock Rat} {lookahead now : Rat} {n : Note Rat}
    (h : inReach c (now + lookahead) n = true) (times : List Rat) :
    firstReach c lookahead (now :: times) n = some now :=
  List.find?_cons_of_pos (decide_eq_true (inReach_iff.1 h))

theorem firstReach_far {c : BeatClock Rat} {lookahead now : Rat} {n : Note Rat}
    (h : ¬ inReach c (now + lookahead) n = true) (times : List Rat) :
    firstReach c lookahead (now :: times) n = firstReach c lookahead times n :=
  List.find?_cons_of_neg fun hnear => h (inReach_iff.2 (of_decide_eq_true hnear))

/-- What a tick plays and what is played after it, by the ticks that reach it. -/
theorem OnCourse.plays {s : Scheduler Rat} (h : s.OnCourse) {now : Rat} {times : List Rat}
    {calls calls' : List (SoundCall Rat)}
    (hnow : Plays s.clock (fun _ => some now) (s.reachedBy now) calls)
    (hlater : Plays s.clock (firstReach s.clock s.lookahead times)
      ((s.pending.dropWhile (inReach s.clock (now + s.lookahead))).filter (timely s.clock))
      calls') :
    Plays s.clock (firstReach s.clock s.lookahead (now :: times))
      (s.pending.filter (timely s.clock)) (calls ++ calls') := by
  have hparts := List.takeWhile_append_dropWhile (p := inReach s.clock (now + s.lookahead))
    (l := s.pending)
  rw [← congrArg (List.filter _) hparts, List.filter_append]
  refine (hnow.congr fun n hn => ?_).append (hlater.congr fun n hn => ?_)
  · exact firstReach_near (List.mem_takeWhile_imp (List.mem_filter.1 hn).1) times
  · have hfar := not_of_mem_dropWhile (h.sorted.reach h.forward _) (List.mem_filter.1 hn).1
    exact firstReach_far hfar times

end Scheduler

/-! ## A studio that plays -/

/-- One thing that happens while music plays: something is done to the piece, or
the output has moved on and there is a tick. -/
inductive Moment (σ α : Type) where
  | edit (e : Event α)
  | tick (meanwhile : σ → σ)

namespace Studio

section Moments

variable {σ α : Type} [Scalar α] [NumberText α] [SoundOutput σ α]

/-- The output changes of itself, which no call tells of. -/
def elapse (s : Studio (Logged σ α) α) (meanwhile : σ → σ) : Studio (Logged σ α) α :=
  { s with output := { s.output with output := meanwhile s.output.output } }

/-- One moment, with the report of a tick. -/
def live (s : Studio (Logged σ α) α) :
    Moment σ α → Option (TickReport α) × Studio (Logged σ α) α
  | .edit e => (none, s.next e)
  | .tick meanwhile => (s.elapse meanwhile).tick

/-- The state after some moments. -/
def perform (s : Studio (Logged σ α) α) (moments : List (Moment σ α)) :
    Studio (Logged σ α) α :=
  moments.foldl (fun s m => (s.live m).2) s

theorem perform_cons (s : Studio (Logged σ α) α) (m : Moment σ α) (ms : List (Moment σ α)) :
    s.perform (m :: ms) = (s.live m).2.perform ms := rfl

/-- The times of the ticks that were reported. -/
def tickTimes (s : Studio (Logged σ α) α) : List (Moment σ α) → List α
  | [] => []
  | m :: ms =>
    let later := (s.live m).2.tickTimes ms
    match m with
    | .edit _ => later
    | .tick meanwhile =>
      if (s.live m).1.isSome then SoundOutput.now (s.elapse meanwhile).output :: later
      else later

/-- Nothing that is done to a piece reaches the transport. -/
theorem next_transport (s : Studio (Logged σ α) α) (e : Event α) :
    (s.next e).transport = s.transport := by
  cases e <;> rfl

/-- Nothing that is done to a piece plays a note; at most a pitch is heard. -/
theorem next_ofNotes (s : Studio (Logged σ α) α) (e : Event α) :
    (s.next e).output.ofNotes = s.output.ofNotes := by
  cases e with
  | gridDown p button =>
      have hout : (s.next (.gridDown p button)).output = (s.gridDown p button).2.output := rfl
      rw [hout, gridDown]
      simp only []
      cases (s.gestures.pointerDown s.session p button).preview with
      | none => rfl
      | some heard =>
          show (s.output.calls ++ [SoundCall.preview heard.1 heard.2]).filter SoundCall.isOfNote = _
          rw [List.filter_append, List.filter_cons_of_neg (by exact Bool.false_ne_true),
            List.filter_nil, List.append_nil]
          rfl
  | _ => rfl

/-- While nothing plays, nothing is reported. -/
theorem perform_idle {s : Studio (Logged σ α) α} (h : s.transport.scheduler = none)
    (moments : List (Moment σ α)) : (s.perform moments).transport.scheduler = none := by
  induction moments generalizing s with
  | nil => exact h
  | cons m ms ih =>
      refine ih ?_
      cases m with
      | edit e =>
          show (s.next e).transport.scheduler = none
          rw [next_transport]
          exact h
      | tick meanwhile =>
          show ((s.elapse meanwhile).transport.tick _).2.1.scheduler = none
          have helapsed : (s.elapse meanwhile).transport.scheduler = none := h
          rw [Transport.tick, helapsed]
          exact h

theorem live_idle {s : Studio (Logged σ α) α} (h : s.transport.scheduler = none)
    (m : Moment σ α) : (s.live m).1 = none := by
  cases m with
  | edit e => rfl
  | tick meanwhile =>
      show ((s.elapse meanwhile).transport.tick _).1 = none
      have helapsed : (s.elapse meanwhile).transport.scheduler = none := h
      rw [Transport.tick, helapsed]

omit [NumberText α] in
/-- A tick that finds the output not ready changes nothing. -/
theorem tick_unready {s : Studio (Logged σ α) α}
    (h : ¬ SoundOutput.isReady s.output = true) : s.tick = (none, s) := by
  obtain ⟨session, gestures, velocities, ⟨timing, state, playhead, scheduler, lastTick⟩, output⟩ := s
  cases scheduler with
  | none => rfl
  | some scheduler => simp only [Studio.tick, Transport.tick, Scheduler.tick, if_neg h]

theorem tickTimes_reported {s : Studio (Logged σ α) α} {meanwhile : σ → σ}
    {report : TickReport α} (h : (s.live (.tick meanwhile)).1 = some report)
    (ms : List (Moment σ α)) :
    s.tickTimes (.tick meanwhile :: ms) =
      SoundOutput.now (s.elapse meanwhile).output ::
        (s.live (.tick meanwhile)).2.tickTimes ms := by
  have hsome : (s.live (.tick meanwhile)).1.isSome = true := by
    rw [h]
    rfl
  exact if_pos hsome

theorem tickTimes_unreported {s : Studio (Logged σ α) α} {meanwhile : σ → σ}
    (h : (s.live (.tick meanwhile)).1 = none) (ms : List (Moment σ α)) :
    s.tickTimes (.tick meanwhile :: ms) = (s.live (.tick meanwhile)).2.tickTimes ms := by
  have hnone : ¬ (s.live (.tick meanwhile)).1.isSome = true := by
    rw [h]
    exact Bool.false_ne_true
  exact if_neg hnone

end Moments

variable {σ : Type} [SoundOutput σ Rat]

/-- A tick that finds the output ready plays what is in reach. It stops and returns
to the beginning just if it reports the end. -/
theorem tick_ready {s : Studio (Logged σ Rat) Rat} {scheduler : Scheduler Rat}
    (hplaying : s.transport.scheduler = some scheduler) (h : scheduler.OnCourse)
    (hready : SoundOutput.isReady s.output = true) :
    let now : Rat := SoundOutput.now s.output
    ∃ report : TickReport Rat,
      report.finished = decide (scheduler.finishBeat ≤ scheduler.clock.beatAt now) ∧
      s.tick = (some report, { s with
        output := Scheduler.playAll scheduler.clock now (scheduler.reachedBy now) s.output
        transport := if report.finished then s.transport.rewind else
          { s.transport with
            scheduler := some
              (scheduler.passed (now + scheduler.lookahead) (scheduler.reachedBy now))
            playhead := Scalar.larger report.beat 0 } }) := by
  obtain ⟨report, hfinished, htick⟩ := h.tick (SoundOutput.now s.output) hready
  refine ⟨report, hfinished, ?_⟩
  rw [Studio.tick, Transport.tick, hplaying]
  simp only [htick]
  rfl

/-- After a tick that finds the output ready there is a scheduler just if it has not
reported the end, and what was in reach has been played. -/
theorem tick_outcome {s : Studio (Logged σ Rat) Rat} {scheduler : Scheduler Rat}
    (hplaying : s.transport.scheduler = some scheduler) (h : scheduler.OnCourse)
    (hready : SoundOutput.isReady s.output = true) :
    let now : Rat := SoundOutput.now s.output
    ∃ report : TickReport Rat, s.tick.1 = some report ∧
      (report.finished = true → s.tick.2.transport.scheduler = none) ∧
      (¬ report.finished = true → s.tick.2.transport.scheduler = some
        (scheduler.passed (now + scheduler.lookahead) (scheduler.reachedBy now))) ∧
      ∃ calls, s.tick.2.output.ofNotes = s.output.ofNotes ++ calls ∧
        Plays scheduler.clock (fun _ => some now) (scheduler.reachedBy now) calls := by
  intro now
  obtain ⟨report, -, htick⟩ := tick_ready hplaying h hready
  rw [htick]
  refine ⟨report, rfl, fun hover => ?_, fun hgoes => ?_,
    Scheduler.playAll_ofNotes scheduler.clock now (scheduler.reachedBy now) s.output⟩
  · simp only [if_pos hover]
    rfl
  · simp only [if_neg hgoes]
    rfl

/-- The tick that reports the end plays all that is left, which is in its reach. -/
theorem tick_finishes {s : Studio (Logged σ Rat) Rat} {scheduler : Scheduler Rat}
    (hplaying : s.transport.scheduler = some scheduler) (h : scheduler.OnCourse)
    {report : TickReport Rat} (hreport : s.tick.1 = some report)
    (hfinished : report.finished = true) :
    let now : Rat := SoundOutput.now s.output
    (scheduler.tick now s.output).2.1.pending = [] ∧
    s.tick.2.transport = s.transport.rewind ∧
    ∃ calls, s.tick.2.output.ofNotes = s.output.ofNotes ++ calls ∧
      Plays scheduler.clock (Scheduler.firstReach scheduler.clock scheduler.lookahead [now])
        (scheduler.pending.filter (Scheduler.timely scheduler.clock)) calls := by
  intro now
  have hready : SoundOutput.isReady s.output = true := by
    refine Decidable.byContradiction fun hnot => ?_
    rw [tick_unready hnot] at hreport
    cases hreport
  obtain ⟨report', hend, htick⟩ := tick_ready hplaying h hready
  obtain rfl : report' = report := by
    rw [htick] at hreport
    exact Option.some.inj hreport
  have hreaches : scheduler.pending.dropWhile (Scheduler.inReach scheduler.clock
      (now + scheduler.lookahead)) = [] :=
    h.finished_reaches (of_decide_eq_true (hend ▸ hfinished))
  obtain ⟨calls, hcalls, hplays⟩ :=
    Scheduler.playAll_ofNotes scheduler.clock now (scheduler.reachedBy now) s.output
  refine ⟨?_, ?_, calls, ?_, ?_⟩
  · obtain ⟨_, -, hscheduler⟩ := h.tick now hready
    rw [hscheduler]
    exact hreaches
  · rw [htick, if_pos hfinished]
  · rw [htick]
    exact hcalls
  · have hnothing : Plays scheduler.clock
        (Scheduler.firstReach scheduler.clock scheduler.lookahead [])
        ((scheduler.pending.dropWhile (Scheduler.inReach scheduler.clock
          (now + scheduler.lookahead))).filter (Scheduler.timely scheduler.clock)) [] := by
      rw [hreaches]
      exact .nil
    have hall := h.plays hplays hnothing
    rw [List.append_nil] at hall
    exact hall

/-- The clock that a playback goes by. -/
def playClock (s : Studio (Logged σ Rat) Rat) (source : Option Rat) : BeatClock Rat where
  audioOrigin := SoundOutput.now (SoundOutput.configure s.session.document.tracks s.output)
  beatOrigin := max (source.getD s.transport.playhead) 0
  secondsPerBeat := 60 / s.session.document.bpm

theorem play_scheduler (s : Studio (Logged σ Rat) Rat) (source : Option Rat) :
    (s.play source).transport.scheduler = some (Scheduler.start
      (s.session.document.notes.filter s.session.isAudible) s.session.document.endBeat
      (s.playClock source) s.transport.timing) := by
  have hminute : (OfScientific.ofScientific 600 true 1 : Rat) = 60 := by norm_num
  have hclock : s.playClock source = BeatClock.ofTempo
      (SoundOutput.now (SoundOutput.configure s.session.document.tracks s.output))
      (Scalar.larger (source.getD s.transport.playhead) 0) s.session.document.bpm := by
    rw [playClock, Scalar.larger_eq_max, ← hminute]
    rfl
  rw [hclock]
  rfl

theorem play_ofNotes (s : Studio (Logged σ Rat) Rat) (source : Option Rat) :
    (s.play source).output.ofNotes = s.output.ofNotes := by
  show (s.output.calls ++ [SoundCall.configure _]).filter SoundCall.isOfNote = _
  rw [List.filter_append, List.filter_cons_of_neg (by exact Bool.false_ne_true),
    List.filter_nil, List.append_nil]
  rfl

theorem onCourse_start {d : Document Rat} (hd : d.Playable) {c : BeatClock Rat}
    (hc : 0 < c.secondsPerBeat) {timing : Timing Rat} (ht : timing.Validated)
    (p : Note Rat → Bool) :
    (Scheduler.start (d.notes.filter p) d.endBeat c timing).OnCourse := by
  have hperm : (Scheduler.byOnset (d.notes.filter p)).Perm (d.notes.filter p) :=
    List.mergeSort_perm _ _
  refine ⟨hc, timing.lookahead.seconds_nonneg, Scheduler.byStart_byOnset _, ?_,
    fun n _ => List.not_mem_nil, fun n hn => ?_⟩
  · have hthin := (List.filter_sublist (p := p) (l := d.notes)).map (·.id)
    exact (hperm.map _).nodup_iff.2 (hd.numbered.distinct.sublist hthin)
  · have hmem : n ∈ d.notes := (List.mem_filter.1 (hperm.mem_iff.1 hn)).1
    have hstart := hd.start_le_endBeat hmem
    have hmargin := ht.endMargin_nonneg
    show n.start ≤ d.endBeat + timing.endMargin
    linarith

section Moments

variable [NumberText Rat]

/-- From any state of a playback: if the tick after some moments reports the end,
then all that is left is played up to there. -/
theorem perform_plays {s : Studio (Logged σ Rat) Rat} {scheduler : Scheduler Rat}
    (hplaying : s.transport.scheduler = some scheduler) (h : scheduler.OnCourse)
    (moments : List (Moment σ Rat)) (last : σ → σ) {report : TickReport Rat}
    (hreport : ((s.perform moments).live (.tick last)).1 = some report)
    (hfinished : report.finished = true) :
    let before := (s.perform moments).elapse last
    (∃ rest, before.transport.scheduler = some rest ∧
      (rest.tick (SoundOutput.now before.output) before.output).2.1.pending = []) ∧
    before.tick.2.transport = before.transport.rewind ∧
    ∃ calls, before.tick.2.output.ofNotes = s.output.ofNotes ++ calls ∧
      Plays scheduler.clock
        (Scheduler.firstReach scheduler.clock scheduler.lookahead
          (s.tickTimes (moments ++ [.tick last])))
        (scheduler.pending.filter (Scheduler.timely scheduler.clock)) calls := by
  -- The induction goes over the states that a playback passes through. A tick before
  -- the last one cannot report the end, for nothing would be left to report it again.
  induction moments generalizing s scheduler with
  | nil =>
      have helapsed : (s.elapse last).transport.scheduler = some scheduler := hplaying
      have hlive : (s.live (.tick last)).1 = some report := hreport
      obtain ⟨hleft, hstopped, hcalls⟩ := tick_finishes helapsed h hlive hfinished
      rw [List.nil_append, tickTimes_reported hlive]
      exact ⟨⟨scheduler, hplaying, hleft⟩, hstopped, hcalls⟩
  | cons m ms ih =>
      rw [perform_cons] at hreport ⊢
      cases m with
      | edit e =>
          have hnext : (s.next e).transport.scheduler = some scheduler := by
            rw [next_transport]
            exact hplaying
          have hrest := ih hnext h hreport
          rw [next_ofNotes] at hrest
          exact hrest
      | tick meanwhile =>
          have helapsed : (s.elapse meanwhile).transport.scheduler = some scheduler := hplaying
          by_cases hready : SoundOutput.isReady (s.elapse meanwhile).output = true
          · obtain ⟨report', hreported, hends, hgoes, calls, hcalls, hnow⟩ :=
              tick_outcome helapsed h hready
            have hreported : (s.live (.tick meanwhile)).1 = some report' := hreported
            by_cases hover : report'.finished = true
            · have hidle : (s.live (.tick meanwhile)).2.transport.scheduler = none := hends hover
              rw [live_idle (perform_idle hidle ms)] at hreport
              cases hreport
            · obtain ⟨hleft, hstopped, later, hlater, hplays⟩ :=
                ih (hgoes hover) (h.passed _) hreport
              refine ⟨hleft, hstopped, calls ++ later, ?_, ?_⟩
              · refine hlater.trans ?_
                rw [hcalls, List.append_assoc]
                rfl
              · rw [List.cons_append, tickTimes_reported hreported]
                exact h.plays hnow hplays
          · have hlive : s.live (.tick meanwhile) = (none, s.elapse meanwhile) :=
              tick_unready hready
            rw [hlive] at hreport ⊢
            have hrest := ih helapsed h hreport
            have hsilent : (s.live (.tick meanwhile)).1 = none := by rw [hlive]
            rw [List.cons_append, tickTimes_unreported hsilent, hlive]
            exact hrest

/-- A piece is played from any state that use can lead to, from any beat. After that
it may be edited in any way between the ticks. When a tick reports the end, nothing
is left to be played; the transport has stopped, without a scheduler and back at the
beginning; and the calls since playing began that play notes are, in the order of
their starts, exactly those of the notes that were audible then and did not begin too
long before the anchor, each from the time of the first tick that reached it. -/
theorem finished_playback {s : Studio (Logged σ Rat) Rat}
    (hs : s.Grown Document.Playable AdmitsPlayable)
    (htiming : s.transport.timing.Validated) (source : Option Rat)
    (moments : List (Moment σ Rat)) (last : σ → σ) {report : TickReport Rat}
    (hreport : (((s.play source).perform moments).live (.tick last)).1 = some report)
    (hfinished : report.finished = true) :
    let before := ((s.play source).perform moments).elapse last
    let after := before.tick.2
    let c := s.playClock source
    let times := (s.play source).tickTimes (moments ++ [.tick last])
    (∃ scheduler, before.transport.scheduler = some scheduler ∧
      (scheduler.tick (SoundOutput.now before.output) before.output).2.1.remaining = 0) ∧
    after.transport.isPlaying = false ∧ after.transport.scheduler = none ∧
    after.transport.playhead = 0 ∧
    ∃ heard calls,
      heard.Perm (s.session.document.notes.filter fun n => s.session.isAudible n &&
        decide (c.audioOrigin - 1 / 20 ≤ c.timeOf n.start)) ∧
      (heard.map (·.id)).Nodup ∧ Scheduler.ByStart heard ∧
      after.output.ofNotes = s.output.ofNotes ++ calls ∧
      Plays c (Scheduler.firstReach c s.transport.timing.lookahead.seconds times) heard
        calls := by
  intro before after c times
  have hplayable := hs.playable
  have hbpm : 0 < s.session.document.bpm :=
    of_decide_eq_true (Bool.and_eq_true_iff.1 hplayable.tempo).2
  have hforward : 0 < c.secondsPerBeat := div_pos (by norm_num) hbpm
  have hcourse := onCourse_start hplayable hforward htiming s.session.isAudible
  obtain ⟨⟨scheduler, hplaying, hleft⟩, hstopped, calls, hcalls, hplays⟩ :=
    perform_plays (s.play_scheduler source) hcourse moments last hreport hfinished
  refine ⟨⟨scheduler, hplaying, congrArg List.length hleft⟩, congrArg (·.isPlaying) hstopped,
    congrArg (·.scheduler) hstopped, congrArg (·.playhead) hstopped,
    (Scheduler.byOnset (s.session.document.notes.filter s.session.isAudible)).filter
      (Scheduler.timely c), calls, ?_, ?_, ?_, ?_, hplays⟩
  · have hperm := (List.mergeSort_perm
      (s.session.document.notes.filter s.session.isAudible) fun m n =>
        Scalar.precedes m.start n.start).filter (Scheduler.timely c)
    rw [List.filter_filter] at hperm
    refine hperm.trans (List.Perm.of_eq (List.filter_congr fun n _ => ?_))
    have htolerance : (Scheduler.lateTolerance : Rat) = 1 / 20 := by decide +kernel
    rw [Bool.and_comm, Bool.eq_iff_iff, Bool.and_eq_true, Bool.and_eq_true,
      Scheduler.timely_iff, decide_eq_true_eq, htolerance]
    rfl
  · exact hcourse.distinct.sublist (List.filter_sublist.map _)
  · exact List.Pairwise.sublist List.filter_sublist hcourse.sorted
  · rw [play_ofNotes] at hcalls
    exact hcalls

end Moments

/-- A short note that is heard, and a long one on a track that is muted. -/
def duetEvents : List (Event Rat) :=
  [.commitNotes [.ofFields 1 60 1 1 127 "t_piano", .ofFields 2 36 0 4 100 "t_kick"],
    .toggleMute "t_kick"]

def duet : Studio (Logged (Recorder Rat) Rat) Rat :=
  run ⟨Session.start (.empty Track.defaults 120), .ofGrid .standard 6, .ofLane .standard,
    .ofTiming .standard, ⟨.start true 10, []⟩⟩ duetEvents

/-- After playing began the notes are taken back, and the output is not ready for a
while. -/
def duetMoments : List (Moment (Recorder Rat) Rat) :=
  [.tick id, .edit .undo, .tick fun out => { out with ready := false, clock := 11 }]

/-- Ready again, at last. -/
def duetLast (out : Recorder Rat) : Recorder Rat := { out with ready := true, clock := 13 }

/-- The one tick that finds the note in reach comes late and is the last one. -/
theorem duet_finished :
    duet.Grown Document.Playable AdmitsPlayable ∧ duet.transport.timing.Validated ∧
    (((duet.play none).perform duetMoments).live (.tick duetLast)).1.map (·.finished) =
      some true ∧
    (((duet.play none).perform duetMoments).live (.tick duetLast)).2.transport.playhead = 0 ∧
    ∃ heard calls, heard.map (·.id) = [1] ∧
      (((duet.play none).perform duetMoments).live (.tick duetLast)).2.output.ofNotes = calls ∧
      Plays (duet.playClock none)
        (Scheduler.firstReach (duet.playClock none) (3 / 20) [10, 13]) heard calls := by
  have hgrown : duet.Grown Document.Playable AdmitsPlayable := by
    refine ⟨_, _, duetEvents, Document.empty_playable Track.defaults 120, ⟨rfl, rfl, rfl⟩, ?_, rfl⟩
    refine ⟨⟨⟨by decide, fun id hid => absurd hid List.not_mem_nil⟩, ?_⟩, ⟨trivial, trivial⟩, trivial⟩
    show ∀ n ∈ _, 0 < Note.duration n
    decide +kernel
  have haudible : duet.session.document.notes.filter duet.session.isAudible =
      duet.session.document.notes.take 1 := rfl
  have hsorted : Scheduler.byOnset (duet.session.document.notes.filter duet.session.isAudible) =
      duet.session.document.notes.take 1 := by
    rw [haudible]
    exact List.mergeSort_of_pairwise (by decide +kernel)
  -- Sorting does not compute, so the scheduler is written down with its notes sorted.
  have hplay : duet.play none = { duet.play none with
      transport := { (duet.play none).transport with
        scheduler := some { Scheduler.start [] duet.session.document.endBeat
          (duet.playClock none) duet.transport.timing with
          pending := duet.session.document.notes.take 1 } } } := by
    have hscheduler : (duet.play none).transport.scheduler = some
        { Scheduler.start [] duet.session.document.endBeat (duet.playClock none)
          duet.transport.timing with pending := duet.session.document.notes.take 1 } := by
      rw [duet.play_scheduler, ← hsorted]
      rfl
    rw [← hscheduler]
  have hfinished : (((duet.play none).perform duetMoments).live (.tick duetLast)).1.map
      (·.finished) = some true := by
    rw [hplay]
    decide +kernel
  have htimes : (duet.play none).tickTimes (duetMoments ++ [.tick duetLast]) = [10, 13] := by
    rw [hplay]
    decide +kernel
  obtain ⟨report, hreport, hend⟩ := Option.map_eq_some_iff.1 hfinished
  obtain ⟨-, -, -, hplayhead, heard, calls, hperm, -, -, hcalls, hplays⟩ :=
    finished_playback hgrown .standard none duetMoments duetLast hreport hend
  have hlookahead : duet.transport.timing.lookahead.seconds = (3 / 20 : Rat) := by decide +kernel
  have hheard : (duet.session.document.notes.filter fun n => duet.session.isAudible n &&
      decide ((duet.playClock none).audioOrigin - 1 / 20 ≤
        (duet.playClock none).timeOf n.start)).map (·.id) = [1] := by
    decide +kernel
  refine ⟨hgrown, .standard, hfinished, hplayhead, heard, calls, ?_, ?_, ?_⟩
  · have hids := hperm.map (·.id)
    rw [hheard] at hids
    exact List.perm_singleton.1 hids
  · exact hcalls
  · rw [htimes, hlookahead] at hplays
    exact hplays

end Studio

end NoteRoll
