import NoteRoll.History

/-!
# A capped history is a window onto an unbounded log

An `UndoLog` is a history as one would first think of it: a list of snapshots
that is cut off behind the present one and appended to, and an index into it.
The history that is kept holds at most fifty snapshots, and this costs nothing
but depth. Put what was forgotten in front of what is held, and it is the log;
so every answer is the log's answer, but for a step back from the oldest
snapshot that is held, which is refused.

The invariant is that equation, `Window`, with the forgotten snapshots as its
witness. A step back or forth moves both places under the same snapshots. The
case with something in it is a commit: both sides drop what lies behind the
present and append, and a history that is full then loses its first snapshot,
by which the forgotten ones grow.
-/

namespace NoteRoll

variable {σ : Type}

namespace History

/-- What can be done to a history. -/
inductive Op (σ : Type) where
  | commit (snapshot : σ)
  | undo
  | redo

def next (h : History σ) : Op σ → History σ
  | .commit snapshot => h.commit snapshot
  | .undo => h.undo?.getD h
  | .redo => h.redo?.getD h

/-- The snapshot that is handed back, if there is one. -/
def answer (h : History σ) : Op σ → Option σ
  | .commit _ => none
  | .undo => h.undo?.map (·.present)
  | .redo => h.redo?.map (·.present)

/-- A commit that keeps so many snapshots that the new one makes 51. -/
def overflows (h : History σ) : Op σ → Bool
  | .commit _ => h.cursor + 1 + 1 == 51
  | .undo | .redo => false

end History

/-- A log of snapshots of which none is forgotten, and the place of the present
one. -/
structure UndoLog (σ : Type) where
  snapshots : List σ
  index : Nat

namespace UndoLog

def start (initial : σ) : UndoLog σ := ⟨[initial], 0⟩

/-- Drops everything behind the index, appends and advances. -/
def commit (u : UndoLog σ) (snapshot : σ) : UndoLog σ :=
  ⟨u.snapshots.take (u.index + 1) ++ [snapshot], u.index + 1⟩

def undo? (u : UndoLog σ) : Option (UndoLog σ) :=
  if u.index = 0 then none else some { u with index := u.index - 1 }

def redo? (u : UndoLog σ) : Option (UndoLog σ) :=
  if u.index + 1 < u.snapshots.length then some { u with index := u.index + 1 } else none

/-- The snapshot at the index. -/
def present? (u : UndoLog σ) : Option σ := u.snapshots[u.index]?

def next (u : UndoLog σ) : History.Op σ → UndoLog σ
  | .commit snapshot => u.commit snapshot
  | .undo => u.undo?.getD u
  | .redo => u.redo?.getD u

def answer (u : UndoLog σ) : History.Op σ → Option σ
  | .commit _ => none
  | .undo => u.undo?.bind present?
  | .redo => u.redo?.bind present?

end UndoLog

/-- A history and the log beside it. -/
structure Recall (σ : Type) where
  history : History σ
  log : UndoLog σ

namespace Recall

def start (initial : σ) : Recall σ := ⟨.start initial, .start initial⟩

/-- How many snapshots of the log the history does not hold. -/
def base (r : Recall σ) : Nat := r.log.snapshots.length - r.history.size

/-- The log does what the history does; a step back that the history refuses is
not taken. -/
def next (r : Recall σ) (op : History.Op σ) : Recall σ where
  history := r.history.next op
  log := match op with
    | .undo => if r.history.canUndo then r.log.next .undo else r.log
    | op => r.log.next op

def run (r : Recall σ) (ops : List (History.Op σ)) : Recall σ := ops.foldl next r

/-- What the history holds, behind the snapshots that it has forgotten, is the
log. -/
structure Window (r : Recall σ) (gone : List σ) : Prop where
  snapshots : r.log.snapshots = gone ++ r.history.log
  index : r.log.index = gone.length + r.history.cursor
  size : r.history.size ≤ 50

theorem window_start (initial : σ) : (start initial).Window [] :=
  ⟨rfl, rfl, show 1 ≤ 50 by decide⟩

namespace Window

variable {r : Recall σ} {gone : List σ}

theorem present (hw : r.Window gone) : r.log.present? = some r.history.present := by
  rw [UndoLog.present?, hw.snapshots, hw.index, List.getElem?_append_right (by omega),
    Nat.add_sub_cancel_left, History.getElem?_log_cursor]

theorem length (hw : r.Window gone) :
    r.log.snapshots.length = gone.length + r.history.size := by
  rw [hw.snapshots, List.length_append, History.length_log]

/-- How much is forgotten is told by the lengths alone. -/
theorem base_eq (hw : r.Window gone) : r.base = gone.length := by
  have hlen := hw.length
  rw [base]
  omega

/-- Of a log, a commit keeps what was forgotten and the past up to the present
snapshot. -/
theorem take_snapshots (hw : r.Window gone) :
    r.log.snapshots.take (r.log.index + 1) =
      gone ++ (r.history.present :: r.history.past).reverse := by
  have hfront : r.log.snapshots =
      (gone ++ (r.history.present :: r.history.past).reverse) ++ r.history.future := by
    rw [hw.snapshots, History.log]
    simp
  have hlen : r.log.index + 1 =
      (gone ++ (r.history.present :: r.history.past).reverse).length := by
    rw [hw.index, History.cursor]
    simp [Nat.add_assoc]
  rw [hfront, hlen, List.take_left]

/-- After a commit the history holds some of the kept snapshots, and the rest of
them count as forgotten. -/
theorem commit_of_held (hw : r.Window gone) (snapshot : σ) {held gone' : List σ}
    (hcap : (r.history.present :: r.history.past).take 49 = held)
    (hsplit : gone ++ (r.history.present :: r.history.past).reverse = gone' ++ held.reverse) :
    (r.next (.commit snapshot)).Window gone' := by
  have hkept := hw.take_snapshots
  have hindex := hw.index
  have hhistory : r.history.commit snapshot = ⟨held, snapshot, []⟩ := by
    rw [← hcap]
    rfl
  have hlens := congrArg List.length hsplit
  have hcaplen := congrArg List.length hcap
  simp only [List.length_append, List.length_reverse, List.length_cons, List.length_take]
    at hlens hcaplen
  refine ⟨?_, ?_, ?_⟩
  · show r.log.snapshots.take (r.log.index + 1) ++ [snapshot] =
      gone' ++ (r.history.commit snapshot).log
    rw [hhistory, hkept, hsplit, History.log, List.append_assoc]
  · show r.log.index + 1 = gone'.length + (r.history.commit snapshot).cursor
    rw [hhistory, hindex]
    simp only [History.cursor]
    omega
  · show (r.history.commit snapshot).size ≤ 50
    rw [hhistory]
    simp only [History.size, List.length_nil]
    omega

/-- A full history forgets its oldest snapshot at a commit, and no other does. -/
theorem commit (hw : r.Window gone) (snapshot : σ) :
    (r.history.cursor + 1 + 1 = 51 ∧
      ∃ oldest, (r.next (.commit snapshot)).Window (gone ++ [oldest])) ∨
    (r.history.cursor + 1 + 1 ≠ 51 ∧ (r.next (.commit snapshot)).Window gone) := by
  have hsize := hw.size
  simp only [History.size] at hsize
  by_cases hfull : r.history.cursor + 1 + 1 = 51
  · obtain ⟨oldest, rest, hrev⟩ : ∃ oldest rest,
        (r.history.present :: r.history.past).reverse = oldest :: rest :=
      List.exists_cons_of_ne_nil (by simp)
    have hkept : r.history.present :: r.history.past = rest.reverse ++ [oldest] := by
      rw [← List.reverse_reverse (r.history.present :: _), hrev, List.reverse_cons]
    have hlen : rest.reverse.length = 49 := by
      have hlens := congrArg List.length hkept
      simp only [List.length_append, List.length_cons, List.length_nil] at hlens
      simp only [History.cursor] at hfull
      omega
    have hcap : (r.history.present :: r.history.past).take 49 = rest.reverse := by
      rw [hkept, ← hlen, List.take_left]
    refine .inl ⟨hfull, oldest, hw.commit_of_held snapshot hcap ?_⟩
    rw [hrev, List.reverse_reverse, List.append_assoc, List.singleton_append]
  · have hall : (r.history.present :: r.history.past).take 49 =
        r.history.present :: r.history.past := by
      refine List.take_of_length_le ?_
      simp only [History.cursor] at hfull
      rw [List.length_cons]
      omega
    exact .inr ⟨hfull, hw.commit_of_held snapshot hall rfl⟩

/-- A step back is refused at the oldest snapshot held; elsewhere both take it. -/
theorem undo (hw : r.Window gone) :
    (r.history.cursor = 0 ∧ r.history.undo? = none ∧ r.next .undo = r) ∨
    (r.history.cursor ≠ 0 ∧ (r.next .undo).Window gone ∧
      r.history.undo? = some (r.next .undo).history ∧
      r.log.undo? = some (r.next .undo).log) := by
  have hsnapshots := hw.snapshots
  have hindex := hw.index
  have hsize := hw.size
  obtain ⟨⟨past, present, future⟩, log⟩ := r
  cases past with
  | nil => exact .inl ⟨rfl, rfl, rfl⟩
  | cons p ps =>
      simp only [History.cursor, History.size, List.length_cons] at hindex hsize
      have hback : log.undo? = some { log with index := log.index - 1 } := if_neg (by omega)
      have hlog : (next ⟨⟨p :: ps, present, future⟩, log⟩ .undo).log =
          { log with index := log.index - 1 } := by
        show (log.undo?).getD log = _
        rw [hback]
        rfl
      refine .inr ⟨Nat.succ_ne_zero _, ⟨?_, ?_, ?_⟩, rfl, by rw [hlog, hback]⟩
      · rw [hlog]
        show log.snapshots = gone ++ (History.mk ps p (present :: future)).log
        rw [hsnapshots, History.log_undo? (h := ⟨p :: ps, present, future⟩) rfl]
      · rw [hlog]
        show log.index - 1 = gone.length + ps.length
        omega
      · show ps.length + 1 + (future.length + 1) ≤ 50
        omega

/-- A step forth is taken by both or refused by both. -/
theorem redo (hw : r.Window gone) :
    (r.history.redo? = none ∧ r.log.redo? = none ∧ r.next .redo = r) ∨
    ((r.next .redo).Window gone ∧ r.history.redo? = some (r.next .redo).history ∧
      r.log.redo? = some (r.next .redo).log) := by
  have hsnapshots := hw.snapshots
  have hindex := hw.index
  have hsize := hw.size
  have hlength := hw.length
  obtain ⟨⟨past, present, future⟩, log⟩ := r
  cases future with
  | nil =>
      simp only [History.cursor, History.size, List.length_nil] at hindex hlength
      have hend : log.redo? = none := if_neg (by omega)
      refine .inl ⟨rfl, hend, ?_⟩
      show (⟨⟨past, present, []⟩, (log.redo?).getD log⟩ : Recall σ) = _
      rw [hend]
      rfl
  | cons f fs =>
      simp only [History.cursor, History.size, List.length_cons] at hindex hlength hsize
      have hforth : log.redo? = some { log with index := log.index + 1 } := if_pos (by omega)
      have hlog : (next ⟨⟨past, present, f :: fs⟩, log⟩ .redo).log =
          { log with index := log.index + 1 } := by
        show (log.redo?).getD log = _
        rw [hforth]
        rfl
      refine .inr ⟨⟨?_, ?_, ?_⟩, rfl, by rw [hlog, hforth]⟩
      · rw [hlog]
        show log.snapshots = gone ++ (History.mk (present :: past) f fs).log
        rw [hsnapshots, History.log_redo? (h := ⟨past, present, f :: fs⟩) rfl]
      · rw [hlog]
        show log.index + 1 = gone.length + (past.length + 1)
        omega
      · show past.length + 1 + 1 + fs.length ≤ 50
        omega

/-- Under every step a window stays one, and what is forgotten grows just where
the history overflows. -/
theorem next (hw : r.Window gone) (op : History.Op σ) :
    ∃ gone', (r.next op).Window gone' ∧
      gone'.length = gone.length + if r.history.overflows op then 1 else 0 := by
  cases op with
  | commit snapshot =>
      rcases hw.commit snapshot with ⟨hfull, oldest, hwin⟩ | ⟨hroom, hwin⟩
      · refine ⟨_, hwin, ?_⟩
        rw [History.overflows, hfull, List.length_append]
        rfl
      · refine ⟨_, hwin, ?_⟩
        have hno : r.history.overflows (.commit snapshot) = false := by
          rw [History.overflows, beq_eq_false_iff_ne]
          exact hroom
        rw [hno]
        rfl
  | undo =>
      refine ⟨gone, ?_, rfl⟩
      rcases hw.undo with ⟨-, -, hstays⟩ | ⟨-, hwin, -⟩
      · rw [hstays]
        exact hw
      · exact hwin
  | redo =>
      refine ⟨gone, ?_, rfl⟩
      rcases hw.redo with ⟨-, -, hstays⟩ | ⟨hwin, -⟩
      · rw [hstays]
        exact hw
      · exact hwin

theorem answer_undo (hw : r.Window gone) :
    r.history.answer .undo =
      if r.log.index = r.base then none else r.log.answer .undo := by
  have hindex := hw.index
  rw [hw.base_eq, History.answer, UndoLog.answer]
  rcases hw.undo with ⟨hbottom, hnone, -⟩ | ⟨hup, hwin, hhistory, hlog⟩
  · rw [hnone, if_pos (by omega)]
    rfl
  · rw [if_neg (by omega), hhistory, hlog, Option.bind_some, hwin.present]
    rfl

theorem answer_redo (hw : r.Window gone) : r.history.answer .redo = r.log.answer .redo := by
  rw [History.answer, UndoLog.answer]
  rcases hw.redo with ⟨hnone, hlog, -⟩ | ⟨hwin, hhistory, hlog⟩
  · rw [hnone, hlog]
    rfl
  · rw [hhistory, hlog, Option.bind_some, hwin.present]
    rfl

theorem run (hw : r.Window gone) (ops : List (History.Op σ)) :
    ∃ gone', (r.run ops).Window gone' := by
  induction ops generalizing r gone with
  | nil => exact ⟨gone, hw⟩
  | cons op ops ih =>
      obtain ⟨_, hnext, -⟩ := hw.next op
      exact ih hnext

end Window

/-- From any first snapshot and after any commits and steps, the history is the
log from its base on, at the same snapshot, and holds one to fifty of them. The
next thing done moves the base up by one if it is a commit that would make 51,
and leaves it otherwise; a step forth is answered as by the log, and so is a step
back, but for one from the base, which is refused. -/
theorem history_is_window (initial : σ) (ops : List (History.Op σ)) :
    let r := (start initial).run ops
    (r.history.log = r.log.snapshots.drop r.base ∧
      r.history.cursor = r.log.index - r.base ∧ r.base ≤ r.log.index ∧
      1 ≤ r.history.size ∧ r.history.size ≤ 50 ∧
      r.log.present? = some r.history.present) ∧
    (∀ op, (r.next op).base = r.base + if r.history.overflows op then 1 else 0) ∧
    r.history.answer .redo = r.log.answer .redo ∧
    r.history.answer .undo =
      if r.log.index = r.base then none else r.log.answer .undo := by
  intro r
  obtain ⟨gone, hw⟩ : ∃ gone, r.Window gone := (window_start initial).run ops
  have hindex := hw.index
  have hbase := hw.base_eq
  have hheld : 1 ≤ r.history.size := by
    rw [History.size]
    omega
  refine ⟨⟨?_, by omega, by omega, hheld, hw.size, hw.present⟩, fun op => ?_,
    hw.answer_redo, hw.answer_undo⟩
  · rw [hbase, hw.snapshots, List.drop_left]
  · obtain ⟨gone', hnext, hlen⟩ := hw.next op
    rw [hnext.base_eq, hlen, hbase]

end Recall

end NoteRoll
