import Mathlib.Data.List.Chain
import Mathlib.Tactic.Ring
import NoteRoll.Proofs.Dispatch

/-!
# Notes that are not late

A note is started at its onset, or at the time of the tick that hands it over if that is later.
What keeps a note from being late is that a tick looks further ahead than the next one is
away, which is what a timing is checked for.

Only two ticks are ever compared. What a tick leaves behind lies strictly beyond its horizon,
and the next tick comes strictly before that horizon, so whatever the next tick hands over has
not begun yet. It is the strictness on both sides that the argument needs: an onset right on
the horizon is handed over by the first of the two, and a lookahead as long as the gap would
do no longer if it were not. The first tick has none before it, which is why the theorem asks
of a note that it does not begin before that tick.
-/

namespace NoteRoll

/-! ## Timings -/

theorem Duration.seconds_eq (d : Duration) : (d.seconds : Rat) = d.nanos / 1000000000 := by
  have hden : (OfScientific.ofScientific 10000000000 true 1 : Rat) = 1000000000 := by norm_num
  have hparts : (d.nanos : Rat) =
      1000000000 * (d.nanos / 1000000000 : Nat) + (d.nanos % 1000000000 : Nat) := by
    exact_mod_cast (Nat.div_add_mod d.nanos 1000000000).symm
  show (((d.nanos / 1000000000 : Nat) : Int) : Rat) + ((d.nanos % 1000000000 : Nat) : Int) /
    OfScientific.ofScientific 10000000000 true 1 = d.nanos / 1000000000
  rw [hden, hparts, Int.cast_natCast, Int.cast_natCast]
  ring

theorem Timing.Validated.tick_lt {t : Timing Rat} (h : t.Validated) :
    (t.tick.seconds : Rat) < t.lookahead.seconds := by
  have hnanos : t.tick.nanos < t.lookahead.nanos := by
    induction h with
    | standard => decide
    | ofTicks h =>
        rw [Timing.ofTicks] at h
        split at h
        · cases h
        · split at h
          · cases h
          · next hlong =>
              cases h
              exact Nat.lt_of_not_le hlong
    | withEndMargin beats _ ih => exact ih
  have hcast : (t.tick.nanos : Rat) < t.lookahead.nanos := by exact_mod_cast hnanos
  rw [Duration.seconds_eq, Duration.seconds_eq]
  linarith

/-! ## What a run hands over -/

namespace Scheduler

section Runs

variable {σ α : Type} [Scalar α] [SoundOutput σ α]

/-- Whether each of some ticks finds the output ready. -/
def attended (s : Scheduler α) (out : σ) : List (Tick σ α) → Bool
  | [] => true
  | t :: ts => t.meetsReady out && (s.advance out t).1.attended (s.advance out t).2 ts

theorem mem_pending_of_mem_batch {s : Scheduler α} {out : σ} {t : Tick σ α} {n : Note α}
    (h : n ∈ s.batch out t) : n ∈ s.pending := by
  rw [batch] at h
  split at h
  · have htimely := (fresh_sublist _ _).subset h
    exact (List.takeWhile_sublist _).subset (List.mem_filter.1 htimely).1
  · cases h

theorem timely_of_mem_batch {s : Scheduler α} {out : σ} {t : Tick σ α} {n : Note α}
    (h : n ∈ s.batch out t) : timely s.clock n = true := by
  rw [batch] at h
  split at h
  · exact (List.mem_filter.1 ((fresh_sublist _ _).subset h)).2
  · cases h

theorem mem_pending_of_mem_handed {s : Scheduler α} {out : σ} {ticks : List (Tick σ α)}
    {p : α × Note α} (h : p ∈ s.handed out ticks) : p.2 ∈ s.pending := by
  induction ticks generalizing s out with
  | nil => cases h
  | cons t ts ih =>
      rw [handed] at h
      rcases List.mem_append.1 h with h | h
      · obtain ⟨n, hn, rfl⟩ := List.mem_map.1 h
        exact mem_pending_of_mem_batch hn
      · have hlater := ih h
        by_cases hready : t.meetsReady out = true
        · rw [s.advance_ready hready] at hlater
          exact (List.dropWhile_sublist _).subset hlater
        · rw [s.advance_unready hready] at hlater
          exact hlater

end Runs

/-! ## Ticks that keep pace -/

variable {σ : Type} [SoundOutput σ Rat]

/-- Ticks that do not go back and are no further apart than a gap. -/
def Paced (gap : Rat) (ticks : List (Tick σ Rat)) : Prop :=
  ticks.IsChain fun t u => t.now ≤ u.now ∧ u.now - t.now ≤ gap

omit [SoundOutput σ Rat] in
theorem Paced.logged {gap : Rat} {ticks : List (Tick σ Rat)} (h : Paced gap ticks) :
    Paced gap (ticks.map Tick.logged) := by
  rw [Paced, List.isChain_map]
  exact h

/-- What a tick leaves begins strictly after all that it looked at. -/
theorem lt_onset_of_mem_passed {s : Scheduler Rat} (hbeat : 0 < s.clock.secondsPerBeat)
    (hsorted : ByStart s.pending) {horizon : Rat} {notes : List (Note Rat)} {n : Note Rat}
    (hn : n ∈ (s.passed horizon notes).pending) : horizon < onset s.clock n := by
  have hfar := not_of_mem_dropWhile (hsorted.reach hbeat horizon) hn
  rw [inReach_iff] at hfar
  exact not_le.1 hfar

/-- Of ticks that come in time, only the first hands over a note that has begun. -/
theorem handed_by_first {s : Scheduler Rat} (hbeat : 0 < s.clock.secondsPerBeat)
    (hsorted : ByStart s.pending) {gap : Rat} (hgap : gap < s.lookahead) {out : σ}
    {ticks : List (Tick σ Rat)} (hready : s.attended out ticks = true) (hpace : Paced gap ticks) :
    ∀ p ∈ s.handed out ticks,
      (∃ t ∈ ticks.head?, t.now = p.1 ∧ p.2 ∈ s.batch out t) ∨ p.1 ≤ onset s.clock p.2 := by
  induction ticks generalizing s out with
  | nil => exact fun p hp => absurd hp List.not_mem_nil
  | cons t ts ih =>
      obtain ⟨hnow, hlater⟩ := Bool.and_eq_true_iff.1 hready
      rw [s.advance_ready hnow] at hlater
      intro p hp
      rw [handed, s.advance_ready hnow] at hp
      rcases List.mem_append.1 hp with hp | hp
      · obtain ⟨n, hn, rfl⟩ := List.mem_map.1 hp
        exact .inl ⟨t, rfl, rfl, hn⟩
      · have hleft : ByStart (s.passed (t.now + s.lookahead) (s.batch out t)).pending :=
          List.Pairwise.sublist (List.dropWhile_sublist _) hsorted
        right
        rcases ih (s := s.passed (t.now + s.lookahead) (s.batch out t)) hbeat hleft hgap hlater
          hpace.of_cons p hp with ⟨u, hu, hnext, hn⟩ | hintime
        · -- The next tick comes before the horizon, and the note begins after it.
          have hbeyond := lt_onset_of_mem_passed hbeat hsorted (mem_pending_of_mem_batch hn)
          obtain ⟨-, hstep⟩ := (List.isChain_cons.1 hpace).1 u hu
          linarith
        · exact hintime

/-- Of ticks that come in time, none hands over a note that has begun, if the first does not. -/
theorem handed_in_time {s : Scheduler Rat} (hbeat : 0 < s.clock.secondsPerBeat)
    (hsorted : ByStart s.pending) {gap origin : Rat} (hgap : gap < s.lookahead) {out : σ}
    {ticks : List (Tick σ Rat)} (hready : s.attended out ticks = true) (hpace : Paced gap ticks)
    (hfirst : ∀ t ∈ ticks.head?, ∀ n ∈ s.pending, origin ≤ onset s.clock n →
      t.now ≤ onset s.clock n) :
    ∀ p ∈ s.handed out ticks, origin ≤ onset s.clock p.2 → p.1 ≤ onset s.clock p.2 := by
  intro p hp horigin
  rcases handed_by_first hbeat hsorted hgap hready hpace p hp with ⟨t, ht, hnow, hn⟩ | hintime
  · exact hnow ▸ hfirst t ht p.2 (mem_pending_of_mem_batch hn) horigin
  · exact hintime

/-- Playback of any notes by a timing that was checked, over ticks that find the output ready, do
not go back and follow each other within the tick of that timing. The calls that are made are those
of the notes handed over, one after the other; and a note that does not begin before the first tick
is started at its onset, whenever it was handed over. -/
theorem started_at_onset {timing : Timing Rat} (hvalid : timing.Validated)
    (notes : List (Note Rat)) (endBeat : Rat) {c : BeatClock Rat} (hbeat : 0 < c.secondsPerBeat)
    (out : Logged σ Rat) (first : Tick σ Rat) (later : List (Tick σ Rat))
    (hready : (start notes endBeat c timing).attended out
      ((first :: later).map Tick.logged) = true)
    (hpace : Paced timing.tick.seconds (first :: later)) :
    let s := start notes endBeat c timing
    let ticks := (first :: later).map Tick.logged
    ∃ voices,
      (s.run out ticks).2.calls = out.calls ++ voices.flatten ∧
      List.Forall₂ (fun n v => ∃ now handle, v = voice c now handle n ∧
          (first.now ≤ c.timeOf n.start → v.head? =
            some (.schedule n.pitch n.track (c.timeOf n.start) (n.velocity / 127) handle)))
        (s.batches out ticks).flatten voices := by
  intro s ticks
  have hsorted : ByStart s.pending := byStart_byOnset notes
  have hfirst : ∀ t ∈ ticks.head?, ∀ n ∈ s.pending, first.now ≤ onset s.clock n →
      t.now ≤ onset s.clock n := by
    rintro t ht n - hn
    obtain rfl : first.logged = t := Option.some.inj ht
    exact hn
  have hintime := handed_in_time hbeat hsorted hvalid.tick_lt hready hpace.logged hfirst
  obtain ⟨voices, hcalls, hvoices⟩ := run_calls s out (first :: later)
  refine ⟨voices, hcalls, ?_⟩
  rw [← handed_notes, List.forall₂_map_left_iff]
  refine ((List.forall₂_and_left _ _).2 ⟨hintime, hvoices⟩).imp fun p v hv => ?_
  obtain ⟨htime, handle, rfl⟩ := hv
  refine ⟨p.1, handle, rfl, fun hn => ?_⟩
  have hstart : max (s.clock.timeOf p.2.start) p.1 = c.timeOf p.2.start := max_eq_left (htime hn)
  rw [voice, List.head?_cons, hstart]

/-- The tightest timing there is, and a tick that comes as late as it may. -/
def tight : Timing Rat := ⟨⟨25000000⟩, ⟨25000001⟩, Timing.defaultEndMargin⟩

def steps : List (Tick (Recorder Rat) Rat) := [⟨id, 1 / 40⟩, ⟨id, 1 / 20⟩]

/-- Notes at the first tick, on the horizon of it and close behind that horizon. -/
def edges : List (Note Rat) :=
  [.ofFields 1 60 0 1 127 "t_piano", .ofFields 2 62 (50000002 / 1000000000) 1 127 "t_piano",
    .ofFields 3 64 (50000003 / 1000000000) 1 127 "t_piano"]

theorem edges_started_at_onset :
    let clock : BeatClock Rat := ⟨0, 0, 1 / 2⟩
    let s := start edges 2 clock tight
    let out : Logged (Recorder Rat) Rat := ⟨.start true 0, []⟩
    let ticks := (⟨id, 0⟩ :: steps).map Tick.logged
    tight.Validated ∧ 0 < clock.secondsPerBeat ∧ s.attended out ticks = true ∧
    Paced tight.tick.seconds (⟨id, 0⟩ :: steps) ∧
    (s.handed out ticks).map (fun p => (p.1, p.2.id)) = [(0, 1), (0, 2), (1 / 40, 3)] ∧
    ∃ voices, (s.run out ticks).2.calls = voices.flatten ∧
      List.Forall₂ (fun n v => ∃ handle, v.head? =
          some (.schedule n.pitch n.track (clock.timeOf n.start) (n.velocity / 127) handle))
        (s.batches out ticks).flatten voices := by
  intro clock s out ticks
  have hvalid : tight.Validated :=
    .ofTicks (rfl : Timing.ofTicks ⟨25000000⟩ ⟨25000001⟩ = Except.ok tight)
  have hbeat : 0 < clock.secondsPerBeat := by decide +kernel
  have hsorted : byOnset edges = edges := List.mergeSort_of_pairwise (by decide +kernel)
  have hs : s = { s with pending := edges } := by
    rw [← hsorted]
    rfl
  have hready : s.attended out ticks = true := by
    rw [hs]
    decide +kernel
  have hpace : Paced tight.tick.seconds (⟨id, 0⟩ :: steps) := by
    refine .cons_cons ?_ (.cons_cons ?_ (.singleton _)) <;> decide +kernel
  have hhanded : (s.handed out ticks).map (fun p => (p.1, p.2.id)) =
      [(0, 1), (0, 2), (1 / 40, 3)] := by
    rw [hs]
    decide +kernel
  have hbegins : ∀ n ∈ (s.batches out ticks).flatten, 0 ≤ clock.timeOf n.start := by
    rw [hs]
    decide +kernel
  obtain ⟨voices, hcalls, hvoices⟩ :=
    started_at_onset hvalid edges 2 hbeat out ⟨id, 0⟩ steps hready hpace
  refine ⟨hvalid, hbeat, hready, hpace, hhanded, voices, hcalls, ?_⟩
  refine ((List.forall₂_and_left _ _).2 ⟨hbegins, hvoices⟩).imp fun n v hv => ?_
  obtain ⟨hn, -, handle, -, hhead⟩ := hv
  exact ⟨handle, hhead hn⟩

end Scheduler

end NoteRoll
