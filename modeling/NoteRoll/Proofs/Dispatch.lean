import Mathlib.Algebra.Order.Field.Rat
import Mathlib.Data.List.TakeWhile
import Mathlib.Tactic.Linarith
import NoteRoll.Proofs.LoggedCalls

/-!
# Which notes a playback hands over

How playback is ticked has no say in what is played. However the ticks are
spaced, whether time stands still, goes back or jumps, and however often the
output is not ready: the notes that the output is asked to play are those in reach
of the furthest horizon, in the order of their onsets and the first for each identity.

A tick scans only a prefix of what is left and never looks at it again. That is
right because onsets are monotone in the order that the notes are kept in, for
which the length of a beat has to be positive, and because a note that comes
too early is passed over before its identity is looked at. The arithmetic is
exact here; nothing else in the argument depends on it.
-/

namespace NoteRoll

namespace Scheduler

/-! ## Prefixes of what is left -/

/-- What is not at the front of a list, for a property that holds at the front. -/
theorem not_of_mem_dropWhile {β : Type} {p : β → Bool} {l : List β}
    (h : l.Pairwise fun a b => p b = true → p a = true) {b : β}
    (hb : b ∈ l.dropWhile p) : ¬ p b = true := by
  induction l with
  | nil => cases hb
  | cons a l ih =>
      obtain ⟨hhead, htail⟩ := List.pairwise_cons.1 h
      by_cases ha : p a = true
      · rw [List.dropWhile_cons_of_pos ha] at hb
        exact ih htail hb
      · rw [List.dropWhile_cons_of_neg ha] at hb
        rcases List.mem_cons.1 hb with rfl | hb
        · exact ha
        · exact fun hpb => ha (hhead b hb hpb)

/-- The notes stand in the order of their starts. -/
def ByStart (notes : List (Note Rat)) : Prop := notes.Pairwise fun m n => m.start ≤ n.start

theorem byStart_byOnset (notes : List (Note Rat)) : ByStart (byOnset notes) := by
  have htrans : ∀ k m n : Note Rat, decide (k.start ≤ m.start) = true →
      decide (m.start ≤ n.start) = true → decide (k.start ≤ n.start) = true := by
    intro k m n hkm hmn
    rw [decide_eq_true_eq] at hkm hmn ⊢
    exact le_trans hkm hmn
  have htotal : ∀ m n : Note Rat,
      (decide (m.start ≤ n.start) || decide (n.start ≤ m.start)) = true := by
    intro m n
    rw [Bool.or_eq_true, decide_eq_true_eq, decide_eq_true_eq]
    exact le_total m.start n.start
  have hsorted := List.pairwise_mergeSort htrans htotal notes
  exact hsorted.imp fun h => of_decide_eq_true h

theorem onset_mono {c : BeatClock Rat} (hbeat : 0 < c.secondsPerBeat) {m n : Note Rat}
    (h : m.start ≤ n.start) : onset c m ≤ onset c n := by
  show c.audioOrigin + (m.start - c.beatOrigin) * c.secondsPerBeat ≤
    c.audioOrigin + (n.start - c.beatOrigin) * c.secondsPerBeat
  have hdist : m.start - c.beatOrigin ≤ n.start - c.beatOrigin := by linarith
  have hscaled := mul_le_mul_of_nonneg_right hdist hbeat.le
  linarith

theorem inReach_iff {c : BeatClock Rat} {horizon : Rat} {n : Note Rat} :
    inReach c horizon n = true ↔ onset c n ≤ horizon := by
  rw [inReach, Bool.not_eq_true', decide_eq_false_iff_not]
  exact not_lt

theorem timely_iff {c : BeatClock Rat} {n : Note Rat} :
    timely c n = true ↔ c.audioOrigin - lateTolerance ≤ onset c n := by
  rw [timely, Bool.not_eq_true', decide_eq_false_iff_not]
  exact not_lt

theorem ByStart.reach {c : BeatClock Rat} (hbeat : 0 < c.secondsPerBeat)
    {notes : List (Note Rat)} (h : ByStart notes) (horizon : Rat) :
    notes.Pairwise fun m n => inReach c horizon n = true → inReach c horizon m = true := by
  refine h.imp fun hmn hn => ?_
  rw [inReach_iff] at hn ⊢
  exact le_trans (onset_mono hbeat hmn) hn

/-! ## Runs -/

variable {σ : Type} [SoundOutput σ Rat]

/-- Some horizon has a note in reach. -/
def reached (c : BeatClock Rat) (horizons : List Rat) (n : Note Rat) : Bool :=
  horizons.any fun h => inReach c h n

theorem filter_reached_nil (c : BeatClock Rat) (notes : List (Note Rat)) :
    (notes.filter fun n => reached c [] n && timely c n) = [] :=
  List.filter_eq_nil_iff.2 fun _ _ => Bool.false_ne_true

/-- A first horizon splits what is reached at the place where its scan ends. -/
theorem filter_reached_cons {c : BeatClock Rat} (hbeat : 0 < c.secondsPerBeat)
    {notes : List (Note Rat)} (hsorted : ByStart notes) (horizon : Rat) (later : List Rat) :
    (notes.filter fun n => reached c (horizon :: later) n && timely c n) =
      (notes.takeWhile (inReach c horizon)).filter (timely c) ++
      (notes.dropWhile (inReach c horizon)).filter fun n =>
        reached c later n && timely c n := by
  have hparts := List.takeWhile_append_dropWhile (p := inReach c horizon) (l := notes)
  rw [← congrArg (List.filter _) hparts, List.filter_append]
  congr 1
  · refine List.filter_congr fun n hn => ?_
    have hnear : inReach c horizon n = true := List.mem_takeWhile_imp hn
    rw [reached, List.any_cons, hnear, Bool.true_or, Bool.true_and]
  · refine List.filter_congr fun n hn => ?_
    have hfar := not_of_mem_dropWhile (hsorted.reach hbeat horizon) hn
    rw [reached, List.any_cons, Bool.eq_false_iff.2 hfar, Bool.false_or]
    rfl

/-- What a run hands over, of a scheduler in any state: what is left decides, and
how far the run looked. -/
theorem batches_flatten {s : Scheduler Rat} (hbeat : 0 < s.clock.secondsPerBeat)
    (hsorted : ByStart s.pending) (out : σ) (ticks : List (Tick σ Rat)) :
    (s.batches out ticks).flatten = fresh s.dispatched
      (s.pending.filter fun n =>
        reached s.clock (s.horizons out ticks) n && timely s.clock n) := by
  -- What a tick leaves is a scheduler like any other, so the induction goes over
  -- all of them and the horizons so far need not be remembered.
  induction ticks generalizing s out with
  | nil =>
      rw [horizons, filter_reached_nil]
      rfl
  | cons t ts ih =>
      rw [batches, List.flatten_cons, horizons]
      by_cases hready : t.meetsReady out = true
      · have hleft : ByStart (s.pending.dropWhile (inReach s.clock (t.now + s.lookahead))) :=
          List.Pairwise.sublist (List.dropWhile_sublist _) hsorted
        have hbatch : s.batch out t = fresh s.dispatched ((s.pending.takeWhile
            (inReach s.clock (t.now + s.lookahead))).filter (timely s.clock)) := if_pos hready
        have hrest := ih (s := s.passed (t.now + s.lookahead) (s.batch out t)) hbeat hleft
          (t.hand s.clock (s.batch out t) out)
        rw [s.advance_ready hready, hrest, if_pos hready,
          filter_reached_cons hbeat hsorted, fresh_append, ← hbatch]
        rfl
      · have hsame := s.advance_unready hready
        rw [s.batch_unready hready, List.nil_append, hsame, if_neg hready]
        exact ih hbeat hsorted _

/-- The notes within reach of a furthest horizon, if there is one: stably sorted
by start, not too early, and the first for each identity. -/
def due (c : BeatClock Rat) (notes : List (Note Rat)) : Option Rat → List (Note Rat)
  | none => []
  | some furthest =>
    ((notes.mergeSort fun m n => decide (m.start ≤ n.start)).filter fun n =>
      decide (c.audioOrigin - lateTolerance ≤ c.timeOf n.start ∧
        c.timeOf n.start ≤ furthest)).eraseDupsBy fun m n => m.id == n.id

/-- What some horizons reach, the furthest of them reaches. -/
theorem reached_iff {c : BeatClock Rat} {horizons : List Rat} {furthest : Rat}
    (h : horizons.max? = some furthest) {n : Note Rat} :
    reached c horizons n = true ↔ onset c n ≤ furthest := by
  obtain ⟨hmem, hmost⟩ := List.max?_eq_some_iff.1 h
  rw [reached, List.any_eq_true]
  constructor
  · rintro ⟨horizon, hhorizon, hreach⟩
    exact le_trans (inReach_iff.1 hreach) (hmost horizon hhorizon)
  · intro hn
    exact ⟨furthest, hmem, inReach_iff.2 hn⟩

theorem flatten_batches_start (notes : List (Note Rat)) (endBeat : Rat) {c : BeatClock Rat}
    (timing : Timing Rat) (hbeat : 0 < c.secondsPerBeat) (out : σ)
    (ticks : List (Tick σ Rat)) :
    ((start notes endBeat c timing).batches out ticks).flatten =
      due c notes ((start notes endBeat c timing).horizons out ticks).max? := by
  have hsorted : ByStart (start notes endBeat c timing).pending := byStart_byOnset notes
  rw [batches_flatten hbeat hsorted]
  cases hmax : ((start notes endBeat c timing).horizons out ticks).max? with
  | none =>
      have hnone : (start notes endBeat c timing).horizons out ticks = [] :=
        List.max?_eq_none_iff.1 hmax
      rw [hnone, filter_reached_nil]
      rfl
  | some furthest =>
      rw [fresh_eq_eraseDupsBy, due]
      congr 1
      rw [List.filter_filter]
      refine List.filter_congr fun n _ => ?_
      rw [Bool.eq_iff_iff, Bool.and_eq_true, Bool.and_eq_true, reached_iff hmax, timely_iff,
        decide_eq_true_eq]
      exact ⟨fun h => ⟨h.2.2, h.2.1⟩, fun h => ⟨rfl, h.2, h.1⟩⟩

/-- What an output is asked for between two states of its log is to play some notes, one after the
other, each from the time of one of some ticks on. -/
def Played (c : BeatClock Rat) (ticks : List (Tick σ Rat)) (before after : List (SoundCall Rat))
    (notes : List (Note Rat)) : Prop :=
  ∃ voices, after = before ++ voices.flatten ∧
    List.Forall₂ (fun n v => ∃ t ∈ ticks, ∃ handle, v = voice c t.now handle n) notes voices

theorem run_played (s : Scheduler Rat) (out : Logged σ Rat) (ticks : List (Tick σ Rat)) :
    Played s.clock ticks out.calls (s.run out (ticks.map Tick.logged)).2.calls
      (s.batches out (ticks.map Tick.logged)).flatten := by
  have htimes : ∀ p ∈ s.handed out (ticks.map Tick.logged), ∃ t ∈ ticks, t.now = p.1 := by
    intro p hp
    obtain ⟨t', ht', hnow⟩ := exists_tick_of_mem_handed hp
    obtain ⟨t, ht, rfl⟩ := List.mem_map.1 ht'
    exact ⟨t, ht, hnow⟩
  obtain ⟨voices, hcalls, hvoices⟩ := run_calls s out ticks
  refine ⟨voices, hcalls, ?_⟩
  rw [← handed_notes, List.forall₂_map_left_iff]
  refine ((List.forall₂_and_left _ _).2 ⟨htimes, hvoices⟩).imp fun p v hv => ?_
  obtain ⟨⟨t, ht, hnow⟩, handle, rfl⟩ := hv
  exact ⟨t, ht, handle, hnow ▸ rfl⟩

theorem run_dispatched (s : Scheduler Rat) (out : σ) (ticks : List (Tick σ Rat)) :
    (s.run out ticks).1.dispatched =
      ((s.batches out ticks).flatten.map (·.id)).reverse ++ s.dispatched := by
  induction ticks generalizing s out with
  | nil => rfl
  | cons t ts ih =>
      rw [run_cons, ih, advance_dispatched, batches, List.flatten_cons, List.map_append,
        List.reverse_append, List.append_assoc]

/-- Over any ticks, at any times and with any readiness of the output: what the output is asked for
is to play the notes due by the furthest horizon of a tick that found it ready, in their order, and
these are the notes marked as handed over. No identity comes twice, and starts do not go back. Of
another run over the same notes and clock that looks as far the same notes are asked for, and the
same are marked. -/
theorem dispatch_exact (notes : List (Note Rat)) (endBeat : Rat) {c : BeatClock Rat}
    (timing : Timing Rat) (hbeat : 0 < c.secondsPerBeat) (out : Logged σ Rat)
    (ticks : List (Tick σ Rat)) :
    let s := start notes endBeat c timing
    let logged := ticks.map Tick.logged
    let played := due c notes (s.horizons out logged).max?
    Played c ticks out.calls (s.run out logged).2.calls played ∧
    (s.run out logged).1.dispatched = (played.map (·.id)).reverse ∧
    (played.map (·.id)).Nodup ∧
    (played.Pairwise fun m n => m.start ≤ n.start) ∧
    ∀ {σ' : Type} [SoundOutput σ' Rat] (endBeat' : Rat) (timing' : Timing Rat)
      (out' : Logged σ' Rat) (ticks' : List (Tick σ' Rat)),
      let s' := start notes endBeat' c timing'
      let logged' := ticks'.map Tick.logged
      (s'.horizons out' logged').max? = (s.horizons out logged).max? →
        Played c ticks' out'.calls (s'.run out' logged').2.calls played ∧
        (s'.run out' logged').1.dispatched = (s.run out logged).1.dispatched := by
  intro s logged played
  have hdue : (s.batches out logged).flatten = played :=
    flatten_batches_start notes endBeat timing hbeat out logged
  have hplayed := run_played s out ticks
  have hmarked := run_dispatched s out logged
  rw [hdue] at hplayed hmarked
  have hmarked : (s.run out logged).1.dispatched = (played.map (·.id)).reverse :=
    hmarked.trans (List.append_nil _)
  have hsorted : ByStart s.pending := byStart_byOnset notes
  have hfresh : played = fresh [] _ := hdue.symm.trans (batches_flatten hbeat hsorted out logged)
  refine ⟨hplayed, hmarked, ?_, ?_, ?_⟩
  · rw [hfresh]
    exact nodup_fresh _ _
  · rw [hfresh]
    have hkept := (fresh_sublist [] _).trans (List.filter_sublist (p := fun n =>
      reached s.clock (s.horizons out logged) n && timely s.clock n) (l := s.pending))
    exact List.Pairwise.sublist hkept hsorted
  · intro σ' _ endBeat' timing' out' ticks' s' logged' hsame
    have hdue' : (s'.batches out' logged').flatten = played := by
      rw [flatten_batches_start notes endBeat' timing' hbeat out' logged', hsame]
    have hplayed' := run_played s' out' ticks'
    have hmarked' := run_dispatched s' out' logged'
    rw [hdue'] at hplayed' hmarked'
    exact ⟨hplayed', hmarked'.trans ((List.append_nil _).trans hmarked.symm)⟩

/-- An identity that is there twice, and a note that stays out of reach. -/
def repeated : List (Note Rat) :=
  [.ofFields 1 60 0 1 100 "t_piano", .ofFields 1 60 (1 / 2) 1 90 "t_piano",
    .ofFields 2 62 1 1 100 "t_bass", .ofFields 3 64 8 1 100 "t_piano"]

/-- Time jumps ahead while the output is not ready, and goes back after. -/
def lurching : List (Tick (Recorder Rat) Rat) :=
  [⟨id, 0⟩, ⟨fun r => { r with ready := false }, 5⟩, ⟨fun r => { r with ready := true }, 1⟩,
    ⟨id, 1 / 2⟩]

theorem dispatch_exact_lurching :
    let clock : BeatClock Rat := ⟨0, 0, 1 / 2⟩
    let s := start repeated 9 clock .standard
    let out : Logged (Recorder Rat) Rat := ⟨.start true 0, []⟩
    let logged := lurching.map Tick.logged
    0 < clock.secondsPerBeat ∧
    (s.horizons out logged).max? = some (23 / 20) ∧
    (s.run out logged).2.calls =
      [.schedule 60 "t_piano" 0 (100 / 127) (some 1), .release 1 (3 / 5),
        .schedule 62 "t_bass" 1 (100 / 127) (some 2), .release 2 (11 / 10)] ∧
    Played clock lurching [] (s.run out logged).2.calls (due clock repeated (some (23 / 20))) ∧
    (due clock repeated (some (23 / 20))).map (·.id) = [1, 2] := by
  intro clock s out logged
  have hbeat : 0 < clock.secondsPerBeat := by decide +kernel
  have hsorted : byOnset repeated = repeated :=
    List.mergeSort_of_pairwise (by decide +kernel)
  have hs : s = { s with pending := repeated } := by
    rw [← hsorted]
    rfl
  have hfurthest : (s.horizons out logged).max? = some (23 / 20) := by
    rw [hs]
    decide +kernel
  have hcalls : (s.run out logged).2.calls =
      [.schedule 60 "t_piano" 0 (100 / 127) (some 1), .release 1 (3 / 5),
        .schedule 62 "t_bass" 1 (100 / 127) (some 2), .release 2 (11 / 10)] := by
    rw [hs]
    decide +kernel
  have hmarked : (s.run out logged).1.dispatched = [2, 1] := by
    rw [hs]
    decide +kernel
  obtain ⟨hplayed, hdispatched, -⟩ := dispatch_exact repeated 9 .standard hbeat out lurching
  rw [hfurthest] at hplayed hdispatched
  refine ⟨hbeat, hfurthest, hcalls, hplayed, ?_⟩
  rw [← List.reverse_reverse ((due clock repeated (some (23 / 20))).map (·.id)), ← hdispatched]
  exact congrArg List.reverse hmarked

end Scheduler

end NoteRoll
