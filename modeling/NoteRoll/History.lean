/-!
# Undo history

A history is a line of snapshots with a present one: those before it can be undone to, those after
it redone to. A commit puts a new snapshot behind the present one and forgets what could be redone.
Only so many snapshots are kept; of a full history, a commit forgets the oldest.
-/

namespace NoteRoll

/-- Snapshots around the present one, nearest first on either side. -/
structure History (σ : Type) where
  past : List σ
  present : σ
  future : List σ

namespace History

variable {σ : Type}

/-- The most snapshots a history holds. -/
def capacity : Nat := 50

/-- The history of one snapshot. -/
def start (initial : σ) : History σ := ⟨[], initial, []⟩

/-- Records a new present. -/
def commit (h : History σ) (snapshot : σ) : History σ :=
  ⟨(h.present :: h.past).take (capacity - 1), snapshot, []⟩

/-- One step back, if there is one. -/
def undo? (h : History σ) : Option (History σ) :=
  match h.past with
  | [] => none
  | p :: ps => some ⟨ps, p, h.present :: h.future⟩

/-- One step forward, if there is one. -/
def redo? (h : History σ) : Option (History σ) :=
  match h.future with
  | [] => none
  | f :: fs => some ⟨h.present :: h.past, f, fs⟩

/-- A step back from a commit leads to what was present before, and the commit is what can
be redone. -/
theorem undo?_commit (h : History σ) (snapshot : σ) :
    (h.commit snapshot).undo? = some ⟨h.past.take (capacity - 2), h.present, [snapshot]⟩ := rfl

/-- Whether there is a step back. -/
def canUndo (h : History σ) : Bool := !h.past.isEmpty

/-- Whether there is a step forward. -/
def canRedo (h : History σ) : Bool := !h.future.isEmpty

/-- All snapshots, oldest first. -/
def log (h : History σ) : List σ := h.past.reverse ++ h.present :: h.future

/-- The place of the present snapshot in the log. -/
def cursor (h : History σ) : Nat := h.past.length

/-- Number of snapshots held. -/
def size (h : History σ) : Nat := h.past.length + 1 + h.future.length

theorem length_log (h : History σ) : h.log.length = h.size := by
  simp only [log, size, List.length_append, List.length_reverse, List.length_cons]
  omega

theorem getElem?_log_cursor (h : History σ) : h.log[h.cursor]? = some h.present := by
  simp [log, cursor]

theorem present_mem_log (h : History σ) : h.present ∈ h.log :=
  List.mem_append_right _ List.mem_cons_self

/-- A step back only moves the place in the log. -/
theorem log_undo? {h h' : History σ} (hu : h.undo? = some h') : h'.log = h.log := by
  obtain ⟨past, present, future⟩ := h
  cases past with
  | nil => cases hu
  | cons p ps =>
      cases hu
      simp [log]

/-- A step forth only moves the place in the log. -/
theorem log_redo? {h h' : History σ} (hr : h.redo? = some h') : h'.log = h.log := by
  obtain ⟨past, present, future⟩ := h
  cases future with
  | nil => cases hr
  | cons f fs =>
      cases hr
      simp [log]

/-- A commit adds no snapshot but its own. -/
theorem mem_log_commit {h : History σ} {snapshot s : σ} (hs : s ∈ (h.commit snapshot).log) :
    s = snapshot ∨ s ∈ h.log := by
  rw [log, List.mem_append] at hs
  rcases hs with hpast | hnow
  · have hheld := List.mem_of_mem_take (List.mem_reverse.1 hpast)
    refine .inr (List.mem_append.2 ?_)
    rcases List.mem_cons.1 hheld with rfl | hbefore
    · exact .inr List.mem_cons_self
    · exact .inl (List.mem_reverse.2 hbefore)
  · exact .inl (List.mem_singleton.1 hnow)

end History

end NoteRoll
