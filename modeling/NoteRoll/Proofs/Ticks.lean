import NoteRoll.Playback.Scheduler

/-!
# What the ticks of a playback hand over

A tick does two things at once: it decides which notes are handed over, and it
makes the calls that hand them over. Here the two are taken apart. `batch` is
the decision, a list of notes that is read off the scheduler and the horizon
alone, and `Tick.hand` makes the calls. `run_output` says that this loses
nothing: what a run of ticks does to an output, whatever the output, is to hand
it the batches in turn. A law about what is played is then a law about lists.

Ticks come at any times, and between them the output may do what it likes; that
is how a clock that goes back and an output that is not ready yet come in.
-/

namespace NoteRoll

namespace Scheduler

variable {α : Type}

/-- Of some notes, the first for each identity that was not seen before. -/
def fresh (seen : List NoteId) : List (Note α) → List (Note α)
  | [] => []
  | n :: notes =>
    if seen.contains n.id then fresh seen notes else n :: fresh (n.id :: seen) notes

theorem fresh_cons_seen {seen : List NoteId} {n : Note α} (h : seen.contains n.id = true)
    (notes : List (Note α)) : fresh seen (n :: notes) = fresh seen notes := by
  rw [fresh, if_pos h]

theorem fresh_cons_new {seen : List NoteId} {n : Note α} (h : ¬ seen.contains n.id = true)
    (notes : List (Note α)) :
    fresh seen (n :: notes) = n :: fresh (n.id :: seen) notes := by
  rw [fresh, if_neg h]

/-- What was handed over from the first part counts as seen in the second. -/
theorem fresh_append (seen : List NoteId) (xs ys : List (Note α)) :
    fresh seen (xs ++ ys) =
      fresh seen xs ++ fresh (((fresh seen xs).map (·.id)).reverse ++ seen) ys := by
  induction xs generalizing seen with
  | nil => rfl
  | cons n xs ih =>
      rw [List.cons_append]
      by_cases h : seen.contains n.id = true
      · rw [fresh_cons_seen h, fresh_cons_seen h]
        exact ih seen
      · rw [fresh_cons_new h, fresh_cons_new h, ih]
        simp only [List.map_cons, List.reverse_cons, List.append_assoc, List.cons_append,
          List.nil_append]

theorem fresh_sublist (seen : List NoteId) (notes : List (Note α)) :
    (fresh seen notes).Sublist notes := by
  induction notes generalizing seen with
  | nil => exact List.Sublist.refl _
  | cons n notes ih =>
      by_cases h : seen.contains n.id = true
      · rw [fresh_cons_seen h]
        exact (ih seen).cons n
      · rw [fresh_cons_new h]
        exact (ih _).cons_cons n

theorem not_mem_of_mem_fresh {seen : List NoteId} {notes : List (Note α)} {n : Note α}
    (h : n ∈ fresh seen notes) : n.id ∉ seen := by
  induction notes generalizing seen with
  | nil => cases h
  | cons m notes ih =>
      by_cases hm : seen.contains m.id = true
      · rw [fresh_cons_seen hm] at h
        exact ih h
      · rw [fresh_cons_new hm] at h
        rcases List.mem_cons.1 h with rfl | h
        · exact fun hmem => hm (List.contains_iff_mem.2 hmem)
        · exact fun hmem => ih h (List.mem_cons_of_mem _ hmem)

theorem nodup_fresh (seen : List NoteId) (notes : List (Note α)) :
    ((fresh seen notes).map (·.id)).Nodup := by
  induction notes generalizing seen with
  | nil => exact List.nodup_nil
  | cons n notes ih =>
      by_cases h : seen.contains n.id = true
      · rw [fresh_cons_seen h]
        exact ih seen
      · rw [fresh_cons_new h, List.map_cons, List.nodup_cons]
        refine ⟨fun hmem => ?_, ih _⟩
        obtain ⟨m, hm, hid⟩ := List.mem_map.1 hmem
        exact not_mem_of_mem_fresh hm (hid ▸ List.mem_cons_self)

/-- Where all identities are different and none was seen, all notes are fresh. -/
theorem fresh_eq_self {seen : List NoteId} {notes : List (Note α)}
    (hdistinct : (notes.map (·.id)).Nodup) (hunseen : ∀ n ∈ notes, n.id ∉ seen) :
    fresh seen notes = notes := by
  induction notes generalizing seen with
  | nil => rfl
  | cons n notes ih =>
      rw [List.map_cons, List.nodup_cons] at hdistinct
      rw [List.forall_mem_cons] at hunseen
      have hnew : ¬ seen.contains n.id = true := fun h => hunseen.1 (List.contains_iff_mem.1 h)
      rw [fresh_cons_new hnew, ih hdistinct.2]
      intro m hm hmem
      rcases List.mem_cons.1 hmem with hsame | hseen
      · exact hdistinct.1 (hsame ▸ List.mem_map_of_mem hm)
      · exact hunseen.2 m hm hseen

/-- In terms of the library: what was seen goes, and then the duplicates go. -/
theorem fresh_eq_eraseDupsBy (seen : List NoteId) (notes : List (Note α)) :
    fresh seen notes = (notes.filter fun n => !seen.contains n.id).eraseDupsBy
      fun m n => m.id == n.id := by
  induction notes generalizing seen with
  | nil => rfl
  | cons n notes ih =>
      by_cases h : seen.contains n.id = true
      · rw [fresh_cons_seen h, ih, List.filter_cons, if_neg (by simpa using h)]
      · rw [fresh_cons_new h, ih, List.filter_cons, if_pos (by simpa using h),
          List.eraseDupsBy_cons, List.filter_filter]
        congr 2
        refine List.filter_congr fun m _ => ?_
        rw [List.contains_cons, Bool.not_or]
        cases m.id == n.id <;> rfl

/-! ## One sweep -/

variable [Scalar α]

/-- The onset of a note does not lie beyond a horizon. -/
def inReach (c : BeatClock α) (horizon : α) (n : Note α) : Bool :=
  !decide (horizon < onset c n)

/-- The onset of a note does not lie too long before the anchor. -/
def timely (c : BeatClock α) (n : Note α) : Bool :=
  !decide (onset c n < c.audioOrigin - lateTolerance)

variable {σ : Type} [SoundOutput σ α]

def playAll (c : BeatClock α) (now : α) (notes : List (Note α)) (out : σ) : σ :=
  notes.foldl (fun out n => play c now n out) out

/-- What a sweep hands over is decided before the output is touched. -/
theorem sweep_eq (c : BeatClock α) (now horizon : α) (notes : List (Note α))
    (seen : List NoteId) (out : σ) :
    let handed := fresh seen ((notes.takeWhile (inReach c horizon)).filter (timely c))
    sweep c now horizon notes seen out =
      (notes.dropWhile (inReach c horizon), (handed.map (·.id)).reverse ++ seen,
        playAll c now handed out) := by
  intro handed
  induction notes generalizing seen out with
  | nil => rfl
  | cons n notes ih =>
      rw [sweep]
      split
      · next hbeyond =>
          have hfar : ¬ inReach c horizon n = true := by simpa [inReach] using hbeyond
          have hnone : handed = [] := by
            show fresh seen (((n :: notes).takeWhile _).filter _) = []
            rw [List.takeWhile_cons_of_neg hfar]
            rfl
          rw [hnone, List.dropWhile_cons_of_neg hfar]
          rfl
      · next hreach =>
          have hnear : inReach c horizon n = true := by simpa [inReach] using hreach
          have htake : handed = fresh seen
              ((n :: notes.takeWhile (inReach c horizon)).filter (timely c)) := by
            rw [← List.takeWhile_cons_of_pos hnear]
          rw [List.dropWhile_cons_of_pos hnear]
          split
          · next hskip =>
              -- Too early or seen before: the note is gone for either reason.
              have hsame : handed =
                  fresh seen ((notes.takeWhile (inReach c horizon)).filter (timely c)) := by
                rw [htake]
                by_cases hlate : timely c n = true
                · have hseen : seen.contains n.id = true := by
                    rcases Bool.or_eq_true_iff.1 hskip with hearly | hseen
                    · rw [timely, hearly] at hlate
                      cases hlate
                    · exact hseen
                  rw [List.filter_cons_of_pos hlate, fresh_cons_seen hseen]
                · rw [List.filter_cons_of_neg hlate]
              rw [ih, hsame]
          · next hnew =>
              rw [Bool.or_eq_true, not_or] at hnew
              have htimely : timely c n = true := by simpa [timely] using hnew.1
              have hfirst : handed = n :: fresh (n.id :: seen)
                  ((notes.takeWhile (inReach c horizon)).filter (timely c)) := by
                rw [htake, List.filter_cons_of_pos htimely, fresh_cons_new hnew.2]
              rw [ih, hfirst, List.map_cons, List.reverse_cons, List.append_assoc]
              rfl

/-! ## Runs of ticks -/

/-- A tick at a time, and what the output does of itself before it. -/
structure Tick (σ α : Type) where
  meanwhile : σ → σ
  now : α

def Tick.hand (t : Tick σ α) (c : BeatClock α) (notes : List (Note α)) (out : σ) : σ :=
  playAll c t.now notes (t.meanwhile out)

def Tick.meetsReady (t : Tick σ α) (out : σ) : Bool := SoundOutput.isReady (t.meanwhile out)

def advance (s : Scheduler α) (out : σ) (t : Tick σ α) : Scheduler α × σ :=
  (s.tick t.now (t.meanwhile out)).2

/-- The notes that a tick hands over. -/
def batch (s : Scheduler α) (out : σ) (t : Tick σ α) : List (Note α) :=
  if t.meetsReady out then
    fresh s.dispatched
      ((s.pending.takeWhile (inReach s.clock (t.now + s.lookahead))).filter (timely s.clock))
  else []

/-- The scheduler after a horizon was reached and some notes were handed over. -/
def passed (s : Scheduler α) (horizon : α) (notes : List (Note α)) : Scheduler α :=
  { s with
    pending := s.pending.dropWhile (inReach s.clock horizon)
    dispatched := (notes.map (·.id)).reverse ++ s.dispatched }

theorem advance_ready (s : Scheduler α) {out : σ} {t : Tick σ α}
    (h : t.meetsReady out = true) :
    s.advance out t =
      (s.passed (t.now + s.lookahead) (s.batch out t), t.hand s.clock (s.batch out t) out) := by
  rw [advance, tick, batch, if_pos h]
  rw [Tick.meetsReady] at h
  rw [if_pos h, sweep_eq]
  rfl

theorem advance_unready (s : Scheduler α) {out : σ} {t : Tick σ α}
    (h : ¬ t.meetsReady out = true) : s.advance out t = (s, t.meanwhile out) := by
  rw [Tick.meetsReady] at h
  rw [advance, tick, if_neg h]

theorem batch_unready (s : Scheduler α) {out : σ} {t : Tick σ α}
    (h : ¬ t.meetsReady out = true) : s.batch out t = [] := if_neg h

def run (s : Scheduler α) (out : σ) (ticks : List (Tick σ α)) : Scheduler α × σ :=
  ticks.foldl (fun p t => p.1.advance p.2 t) (s, out)

theorem run_cons (s : Scheduler α) (out : σ) (t : Tick σ α) (ts : List (Tick σ α)) :
    s.run out (t :: ts) = (s.advance out t).1.run (s.advance out t).2 ts := rfl

/-- The notes that each of some ticks hands over. -/
def batches (s : Scheduler α) (out : σ) : List (Tick σ α) → List (List (Note α))
  | [] => []
  | t :: ts => s.batch out t :: (s.advance out t).1.batches (s.advance out t).2 ts

/-- How far the ticks at which the output was ready looked ahead. -/
def horizons (s : Scheduler α) (out : σ) : List (Tick σ α) → List α
  | [] => []
  | t :: ts =>
    let later := (s.advance out t).1.horizons (s.advance out t).2 ts
    if t.meetsReady out then (t.now + s.lookahead) :: later else later

theorem advance_output (s : Scheduler α) (out : σ) (t : Tick σ α) :
    (s.advance out t).2 = t.hand s.clock (s.batch out t) out := by
  by_cases h : t.meetsReady out = true
  · rw [s.advance_ready h]
  · rw [s.advance_unready h, s.batch_unready h]
    rfl

theorem advance_clock (s : Scheduler α) (out : σ) (t : Tick σ α) :
    (s.advance out t).1.clock = s.clock := by
  by_cases h : t.meetsReady out = true
  · rw [s.advance_ready h]
    rfl
  · rw [s.advance_unready h]

theorem advance_dispatched (s : Scheduler α) (out : σ) (t : Tick σ α) :
    (s.advance out t).1.dispatched =
      ((s.batch out t).map (·.id)).reverse ++ s.dispatched := by
  by_cases h : t.meetsReady out = true
  · rw [s.advance_ready h]
    rfl
  · rw [s.advance_unready h, s.batch_unready h]
    rfl

end Scheduler

end NoteRoll
