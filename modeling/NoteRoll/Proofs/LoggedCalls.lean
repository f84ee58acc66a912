import Mathlib.Data.List.Forall2
import Mathlib.Tactic.NormNum
import NoteRoll.Proofs.Playable
import NoteRoll.Proofs.Ticks

/-!
# What an output is asked for

A scheduler is known by the calls that its output gets. They are read off a log that is put in
front of the output, so that the output itself may do what it likes: answer with handles or not,
be ready or not, let its clock stand still, jump or go back.

`handed` is the decision of all ticks of a run, each note with the time of the tick that found it.
`run_logs` says that a run makes the calls of these notes and no others: one call that schedules
the note and, if that was answered with a handle, one that releases it. So what is said of the notes
that ticks hand over is said of the calls.
-/

namespace NoteRoll

/-! ## The log of an output -/

deriving instance DecidableEq for SoundCall

/-- An output, and the calls that it got. -/
structure Logged (σ α : Type) where
  output : σ
  calls : List (SoundCall α)

/-- Whether a call is part of the playing of a note. -/
def SoundCall.isOfNote {α : Type} : SoundCall α → Bool
  | .schedule .. | .release .. => true
  | .preview .. | .configure .. => false

namespace Logged

variable {σ α : Type}

instance instSoundOutputLogged [SoundOutput σ α] : SoundOutput (Logged σ α) α where
  isReady r := SoundOutput.isReady r.output
  now r := SoundOutput.now r.output
  preview pitch track r :=
    ⟨SoundOutput.preview pitch track r.output, r.calls ++ [.preview pitch track]⟩
  schedule pitch track time gain r :=
    let (handle, output) := SoundOutput.schedule pitch track time gain r.output
    (handle, ⟨output, r.calls ++ [.schedule pitch track time gain handle]⟩)
  release handle time r :=
    ⟨SoundOutput.release handle time r.output, r.calls ++ [.release handle time]⟩
  configure tracks r :=
    ⟨SoundOutput.configure tracks r.output, r.calls ++ [.configure (tracks.map (·.id))]⟩

theorem schedule_eq [SoundOutput σ α] {pitch : Nat} {track : TrackId} {time gain : α}
    {r : Logged σ α} {handle : Option Handle} {output : σ}
    (h : SoundOutput.schedule pitch track time gain r.output = (handle, output)) :
    SoundOutput.schedule pitch track time gain r =
      (handle, (⟨output, r.calls ++ [.schedule pitch track time gain handle]⟩ : Logged σ α)) := by
  simp only [SoundOutput.schedule] at h ⊢
  rw [h]

/-- The calls that notes are played by. -/
def ofNotes (r : Logged σ α) : List (SoundCall α) := r.calls.filter SoundCall.isOfNote

end Logged

namespace Scheduler

section Calls

variable {σ α : Type}

/-- The tick for an output with a log, which goes on being written by calls alone. -/
def Tick.logged (t : Tick σ α) : Tick (Logged σ α) α :=
  ⟨fun r => { r with output := t.meanwhile r.output }, t.now⟩

variable [Scalar α]

/-! ## The calls of a note -/

/-- The calls that a tick at a time hands a note over by: its start, and its release if there is
a handle to release it by. -/
def callsFor (c : BeatClock α) (now : α) (handle : Option Handle) (n : Note α) :
    List (SoundCall α) :=
  .schedule n.pitch n.track (Scalar.larger (onset c n) now) (velocityGain n.velocity) handle ::
    (handle.map fun h => .release h (releaseTime c n)).toList

variable [SoundOutput σ α]

theorem play_logs (c : BeatClock α) (now : α) (n : Note α) (out : Logged σ α) :
    ∃ handle, (play c now n out).calls = out.calls ++ callsFor c now handle n := by
  rcases hanswer : SoundOutput.schedule n.pitch n.track (Scalar.larger (onset c n) now)
    (velocityGain n.velocity) out.output with ⟨handle, output⟩
  refine ⟨handle, ?_⟩
  rw [play, Logged.schedule_eq hanswer, callsFor]
  cases handle with
  | none => rfl
  | some handle => exact List.append_assoc _ _ _

/-- The calls of some notes, note by note. -/
theorem playAll_logs (c : BeatClock α) (now : α) (notes : List (Note α)) (out : Logged σ α) :
    ∃ voices,
      (playAll c now notes out).calls = out.calls ++ voices.flatten ∧
      List.Forall₂ (fun n v => ∃ handle, v = callsFor c now handle n) notes voices := by
  induction notes generalizing out with
  | nil => exact ⟨[], (List.append_nil _).symm, .nil⟩
  | cons n notes ih =>
      obtain ⟨handle, hfirst⟩ := play_logs c now n out
      obtain ⟨voices, hrest, hvoices⟩ := ih (play c now n out)
      refine ⟨callsFor c now handle n :: voices, ?_, .cons ⟨handle, rfl⟩ hvoices⟩
      rw [List.flatten_cons, ← List.append_assoc, ← hfirst, ← hrest]
      rfl

/-! ## The calls of a run -/

/-- The notes that some ticks hand over, each with the time of its tick. -/
def handed (s : Scheduler α) (out : σ) : List (Tick σ α) → List (α × Note α)
  | [] => []
  | t :: ts =>
    (s.batch out t).map (fun n => (t.now, n)) ++ (s.advance out t).1.handed (s.advance out t).2 ts

theorem handed_notes (s : Scheduler α) (out : σ) (ticks : List (Tick σ α)) :
    (s.handed out ticks).map Prod.snd = (s.batches out ticks).flatten := by
  induction ticks generalizing s out with
  | nil => rfl
  | cons t ts ih =>
      have hhere : ((s.batch out t).map fun n => (t.now, n)).map Prod.snd = s.batch out t := by
        rw [List.map_map]
        exact List.map_id _
      rw [handed, batches, List.map_append, List.flatten_cons, ih, hhere]

theorem exists_tick_of_mem_handed {s : Scheduler α} {out : σ} {ticks : List (Tick σ α)}
    {p : α × Note α} (h : p ∈ s.handed out ticks) : ∃ t ∈ ticks, t.now = p.1 := by
  induction ticks generalizing s out with
  | nil => cases h
  | cons t ts ih =>
      rcases List.mem_append.1 h with hhere | hlater
      · obtain ⟨n, -, rfl⟩ := List.mem_map.1 hhere
        exact ⟨t, List.mem_cons_self, rfl⟩
      · obtain ⟨u, hu, hnow⟩ := ih hlater
        exact ⟨u, List.mem_cons_of_mem t hu, hnow⟩

/-- All calls of a run are those that hand the notes over, note by note. -/
theorem run_logs (s : Scheduler α) (out : Logged σ α) (ticks : List (Tick σ α)) :
    ∃ voices,
      (s.run out (ticks.map Tick.logged)).2.calls = out.calls ++ voices.flatten ∧
      List.Forall₂ (fun p v => ∃ handle, v = callsFor s.clock p.1 handle p.2)
        (s.handed out (ticks.map Tick.logged)) voices := by
  induction ticks generalizing s out with
  | nil => exact ⟨[], (List.append_nil _).symm, .nil⟩
  | cons t ts ih =>
      obtain ⟨now, hnow, hvoices⟩ := playAll_logs s.clock t.now (s.batch out t.logged)
        (t.logged.meanwhile out)
      obtain ⟨later, hlater, hrest⟩ :=
        ih (s.advance out t.logged).1 (s.advance out t.logged).2
      rw [advance_clock] at hrest
      refine ⟨now ++ later, ?_, ?_⟩
      · have hout : (s.advance out t.logged).2.calls = out.calls ++ now.flatten := by
          rw [advance_output]
          exact hnow
        rw [List.map_cons, run_cons, hlater, hout, List.flatten_append, List.append_assoc]
      · rw [List.map_cons, handed]
        refine List.rel_append ?_ hrest
        rw [List.forall₂_map_left_iff]
        exact hvoices

end Calls

end Scheduler

/-! ## Exact times -/

/-- The calls that a note is played by, from a tick at a time on. -/
def voice (c : BeatClock Rat) (now : Rat) (handle : Option Handle) (n : Note Rat) :
    List (SoundCall Rat) :=
  .schedule n.pitch n.track (max (c.timeOf n.start) now) (n.velocity / 127) handle ::
    (handle.map fun h =>
      .release h (c.timeOf n.start + n.duration * c.secondsPerBeat + 1 / 10)).toList

theorem velocityGain_eq (velocity : Nat) : (velocityGain velocity : Rat) = velocity / 127 := by
  have hden : (OfScientific.ofScientific 1270 true 1 : Rat) = 127 := by norm_num
  show ((velocity : Int) : Rat) / OfScientific.ofScientific 1270 true 1 = velocity / 127
  rw [hden, Int.cast_natCast]

namespace Scheduler

theorem callsFor_eq_voice (c : BeatClock Rat) (now : Rat) (handle : Option Handle)
    (n : Note Rat) : callsFor c now handle n = voice c now handle n := by
  have hstart : Scalar.larger (onset c n) now = max (c.timeOf n.start) now :=
    Scalar.larger_eq_max _ _
  have hend : releaseTime c n = c.timeOf n.start + n.duration * c.secondsPerBeat + 1 / 10 := by
    have htail : (releaseTail : Rat) = 1 / 10 := by decide +kernel
    rw [← htail]
    rfl
  rw [callsFor, hstart, hend, velocityGain_eq]
  rfl

variable {σ : Type} [SoundOutput σ Rat]

theorem run_calls (s : Scheduler Rat) (out : Logged σ Rat) (ticks : List (Tick σ Rat)) :
    ∃ voices,
      (s.run out (ticks.map Tick.logged)).2.calls = out.calls ++ voices.flatten ∧
      List.Forall₂ (fun p v => ∃ handle, v = voice s.clock p.1 handle p.2)
        (s.handed out (ticks.map Tick.logged)) voices := by
  obtain ⟨voices, hcalls, hvoices⟩ := run_logs s out ticks
  refine ⟨voices, hcalls, hvoices.imp fun p v hv => ?_⟩
  obtain ⟨handle, rfl⟩ := hv
  exact ⟨handle, callsFor_eq_voice _ _ _ _⟩

end Scheduler

end NoteRoll
