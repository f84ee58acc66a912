import NoteRoll.Proofs.PaintedCells

/-!
# Which layer a cell shows

`cellShown` decides about one cell without painting anything: it goes through the
layers from the top down and takes the first that has something there. The roll is
painted from the bottom up, the notes one over the other, then the ghosts; then come
the frame of the marquee and the playhead, which give way to what is painted. That the
two are the same table of cells is `project_eq_shown`, for any arithmetic.

A cell is asked about by its numbers, a note is painted by its block of cells. Between
the two stand casts to 64 bits. The table keeps them as they are, for it holds in any
arithmetic. How to read it in exact arithmetic is a result of its own, `takesUp_iff`: a
pixel that fits is cast to its floor, and a screen has no cells where one does not fit.
-/

namespace NoteRoll

namespace Roll

variable {α : Type} [Scalar α]

/-! ## What a cell is asked for -/

/-- The cell that a pixel lies in, along one axis: its floor, cast. -/
def cellOf (x : α) : Int := Scalar.truncateInt64 (Scalar.floor x)

/-- The first cell that does not begin before a pixel, along one axis: its ceiling, cast. -/
def cellFrom (x : α) : Int := Scalar.truncateInt64 (Scalar.ceil x)

theorem cellOf_eq_floor {x : Rat} (hlow : -9223372036854775808 ≤ x.floor)
    (hhigh : x.floor ≤ 9223372036854775807) : cellOf x = x.floor := by
  rw [cellOf, Scalar.truncateInt64, Scalar.truncate_floor]
  omega

theorem cellFrom_eq_ceil {x : Rat} (hlow : -9223372036854775808 ≤ x.ceil)
    (hhigh : x.ceil ≤ 9223372036854775807) : cellFrom x = x.ceil := by
  rw [cellFrom, Scalar.truncateInt64, Scalar.truncate_ceil]
  omega

/-- A stretch of pixels from `a` to `b` takes up the cells that it overlaps, and at
least the one that it begins in. -/
def TakesUp (a b : α) (cell : Nat) : Prop :=
  cellOf a ≤ cell ∧ (cell : Int) < max (cellFrom b) (cellOf a + 1)

/-- In exact arithmetic the casts are gone where the two ends fit. -/
theorem takesUp_iff {a b : Rat} {cell : Nat}
    (ha : -9223372036854775808 ≤ a.floor ∧ a.floor ≤ 9223372036854775807)
    (hb : -9223372036854775808 ≤ b.ceil ∧ b.ceil ≤ 9223372036854775807) :
    TakesUp a b cell ↔ a.floor ≤ cell ∧ (cell : Int) < max b.ceil (a.floor + 1) := by
  rw [TakesUp, cellOf_eq_floor ha.1 ha.2, cellFrom_eq_ceil hb.1 hb.2]

/-- A note takes up a cell in both directions. -/
def Covers (grid : Grid α) (view : Viewport α) (n : Note α) (row col : Nat) : Prop :=
  TakesUp (grid.beatToX n.start - view.scrollX) (grid.beatToX n.stop - view.scrollX) col ∧
  TakesUp (grid.pitchToY n.pitch) (grid.pitchToY n.pitch + grid.rowHeight) row

/-- A cell in the closed rectangle of cells that a marquee spans, and on its border. -/
def Frames (view : Viewport α) (r : Rect α) (row col : Nat) : Prop :=
  (cellOf r.y0 ≤ row ∧ row ≤ cellOf r.y1) ∧
  (cellOf (r.x0 - view.scrollX) ≤ col ∧ col ≤ cellOf (r.x1 - view.scrollX)) ∧
  ((row : Int) = cellOf r.y0 ∨ (row : Int) = cellOf r.y1 ∨
    (col : Int) = cellOf (r.x0 - view.scrollX) ∨ (col : Int) = cellOf (r.x1 - view.scrollX))

instance instDecidableTakesUp (a b : α) (cell : Nat) : Decidable (TakesUp a b cell) :=
  inferInstanceAs (Decidable (_ ∧ _))

instance instDecidableCovers (grid : Grid α) (view : Viewport α) (n : Note α) (row col : Nat) :
    Decidable (Covers grid view n row col) := inferInstanceAs (Decidable (_ ∧ _))

instance instDecidableFrames (view : Viewport α) (r : Rect α) (row col : Nat) :
    Decidable (Frames view r row col) := inferInstanceAs (Decidable (_ ∧ _ ∧ _))

/-- The colour of the piano key of a row: black only for a playable pitch. -/
def hasBlackKey (grid : Grid α) (row : Nat) : Bool :=
  let pitch := grid.yToPitch (Scalar.ofNat row + 0.5)
  decide (0 ≤ pitch ∧ pitch ≤ 127) && Pitch.isBlackKey pitch.toNat

variable (session : Session α) (grid : Grid α) (view : Viewport α) (overlay : Overlay α)

/-- A note of a track that is not hidden, not replaced by a ghost, where it is. -/
def Stands (n : Note α) (row col : Nat) : Prop :=
  session.isHidden n.track = false ∧ n.id ∉ overlay.replaced ∧ Covers grid view n row col

instance instDecidableStands (n : Note α) (row col : Nat) :
    Decidable (Stands session grid view overlay n row col) :=
  inferInstanceAs (Decidable (_ ∧ _ ∧ _))

/-- The notes that stand in a cell, in document order. -/
def standing (row col : Nat) : List (Note α) :=
  session.document.notes.filter fun n => decide (Stands session grid view overlay n row col)

/-- What a cell shows, from the uppermost layer down. -/
def cellShown (row col : Nat) : RollCell :=
  if ∃ g ∈ overlay.ghosts, Covers grid view g row col then .ghost
  else
    ((standing session grid view overlay row col).getLast?.map fun n =>
      RollCell.note (session.document.trackIndex n.track)
        (session.selection.contains n.id)).getD
    (if ∃ r ∈ overlay.marquee, Frames view r row col then .marquee
    else if ∃ beat ∈ overlay.playhead, (col : Int) = cellOf (grid.beatToX beat - view.scrollX) then
      .playhead
    else .empty (hasBlackKey grid row) (gridLine grid view col))

/-! ## The layers -/

variable {session grid view overlay} {row col : Nat}

theorem covers_iff {n : Note α} :
    (noteBlock grid view n).covers row col = true ↔ Covers grid view n row col := by
  rw [CellBlock.covers, decide_eq_true_iff, ← and_assoc]
  exact and_comm

theorem onBorder_iff {r : Rect α} :
    (marqueeBlock view r).onBorder row col = true ↔ Frames view r row col := by
  rw [CellBlock.onBorder, CellBlock.covers, Bool.and_eq_true, decide_eq_true_iff,
    decide_eq_true_iff]
  simp only [marqueeBlock, Viewport.colOf, Frames, cellOf]
  omega

/-- The last of the covering ghosts is asked for, and only whether there is one counts. -/
theorem ghosts_getD (gs : List (Note α)) (under : RollCell) :
    ((((gs.filter fun g => (noteBlock grid view g).covers row col).getLast?).map
      fun _ => RollCell.ghost).getD under) =
      if ∃ g ∈ gs, Covers grid view g row col then .ghost else under := by
  cases hlast : (gs.filter fun g => (noteBlock grid view g).covers row col).getLast? with
  | none =>
      rw [List.getLast?_eq_none_iff, List.filter_eq_nil_iff] at hlast
      rw [if_neg]
      · rfl
      · rintro ⟨g, hg, hcovers⟩
        exact hlast g hg (covers_iff.2 hcovers)
  | some g =>
      obtain ⟨hg, hcovers⟩ := List.mem_filter.1 (List.mem_of_getLast? hlast)
      rw [if_pos ⟨g, hg, covers_iff.1 hcovers⟩]
      rfl

theorem filter_shownNotes :
    (shownNotes session overlay).filter (fun n => (noteBlock grid view n).covers row col) =
      standing session grid view overlay row col := by
  rw [standing, shownNotes, Session.visibleNotes, List.filter_filter, List.filter_filter]
  refine List.filter_congr fun n _ => ?_
  rw [Bool.eq_iff_iff, decide_eq_true_iff]
  simp only [Bool.and_eq_true, Bool.not_eq_true', covers_iff, List.contains_eq_mem,
    decide_eq_false_iff_not, Stands]
  tauto

theorem groundAt_eq :
    groundAt grid view row col = .empty (hasBlackKey grid row) (gridLine grid view col) := by
  -- The centre of the cell is in the middle of its row whatever the column is.
  rw [groundAt, show (view.cellCenter 0 row).y = Scalar.ofNat row + 0.5 from rfl, hasBlackKey]
  generalize grid.yToPitch (Scalar.ofNat row + 0.5) = pitch
  rw [isBlack, Pitch.ofInt?]
  by_cases hkey : 0 ≤ pitch ∧ pitch ≤ (Pitch.highest : Int)
  · rw [if_pos hkey, decide_eq_true (show 0 ≤ pitch ∧ pitch ≤ 127 from hkey)]
    rfl
  · rw [if_neg hkey, decide_eq_false (show ¬(0 ≤ pitch ∧ pitch ≤ 127) from hkey)]
    rfl

/-- A cell that shows a note shows the last one that stands there. -/
theorem note_of_cellShown {track : Nat} {selected : Bool}
    (h : cellShown session grid view overlay row col = .note track selected) :
    ∃ n, (standing session grid view overlay row col).getLast? = some n ∧
      RollCell.note track selected =
        .note (session.document.trackIndex n.track) (session.selection.contains n.id) := by
  rw [cellShown] at h
  split at h
  · cases h
  · cases hlast : (standing session grid view overlay row col).getLast? with
    | some n =>
        rw [hlast] at h
        exact ⟨n, rfl, h.symm⟩
    | none =>
        simp only [hlast, Option.map_none, Option.getD_none] at h
        split at h
        · cases h
        · split at h <;> cases h

variable (session grid view overlay row col)

/-- The two frames give way to a note or a ghost, and the playhead to the marquee. -/
theorem cellShown_eq :
    filled (overlay.playhead.any fun beat =>
        decide ((col : Int) = view.colOf (grid.beatToX beat))) .playhead
      (filled (overlay.marquee.any fun r => (marqueeBlock view r).onBorder row col) .marquee
        (notesAt session grid view overlay row col)) =
      cellShown session grid view overlay row col := by
  have hmarquee : (overlay.marquee.any fun r => (marqueeBlock view r).onBorder row col) = true ↔
      ∃ r ∈ overlay.marquee, Frames view r row col := by
    simp only [Option.any_eq_true, onBorder_iff, Option.mem_def]
  have hplayhead : (overlay.playhead.any fun beat =>
      decide ((col : Int) = view.colOf (grid.beatToX beat))) = true ↔
      ∃ beat ∈ overlay.playhead, (col : Int) = cellOf (grid.beatToX beat - view.scrollX) := by
    simp only [Option.any_eq_true, decide_eq_true_iff, Option.mem_def]
    rfl
  rw [notesAt, ghosts_getD, filter_shownNotes, groundAt_eq, cellShown]
  simp only [← hmarquee, ← hplayhead]
  split
  · rfl
  · cases (standing session grid view overlay row col).getLast? with
    | some n => rfl
    | none =>
        by_cases h : (overlay.marquee.any fun r => (marqueeBlock view r).onBorder row col) = true
        · rw [h]
          rfl
        · rw [Bool.not_eq_true] at h
          rw [h]
          rfl

/-- A cell shows what the uppermost layer has in it, and no cell shows a note that is on a
hidden track or replaced. -/
theorem project_eq_shown :
    project session grid view overlay =
      table view.rows view.cols (cellShown session grid view overlay) ∧
    ∀ row col track selected,
      cellAt? (project session grid view overlay) row col = some (.note track selected) →
      ∃ n ∈ session.document.notes, session.isHidden n.track = false ∧
        n.id ∉ overlay.replaced ∧ Covers grid view n row col ∧
        track = session.document.trackIndex n.track ∧
        selected = session.selection.contains n.id := by
  have htable : project session grid view overlay =
      table view.rows view.cols (cellShown session grid view overlay) := by
    rw [project_eq_table]
    simp only [cellShown_eq]
  refine ⟨htable, ?_⟩
  intro row col track selected hshown
  rw [htable] at hshown
  obtain ⟨n, hlast, hcell⟩ := note_of_cellShown (of_cellAt?_table hshown)
  obtain ⟨hn, hstands⟩ := List.mem_filter.1 (List.mem_of_getLast? hlast)
  obtain ⟨hvisible, hkept, hcovers⟩ := of_decide_eq_true hstands
  rw [RollCell.note.injEq] at hcell
  exact ⟨n, hn, hvisible, hkept, hcovers, hcell.1, hcell.2⟩

/-- Two notes one over the other, one on a hidden track and one that is being moved. -/
def layered : Session Rat :=
  { Session.start ((Document.empty Track.defaults 120).replaceNotes
      [⟨1, 62, 0, 1, 90, "t_piano"⟩, ⟨2, 62, 1 / 2, 1, 90, "t_bass"⟩,
        ⟨3, 61, 0, 2, 90, "t_kick"⟩, ⟨4, 61, 1, 1, 90, "t_piano"⟩]) with
    selection := .ofList [2]
    hidden := ["t_kick"] }

/-- The first note begins left of the view, and the frame goes on below it. The playhead runs
under the frame and a ghost and is seen in the last row only. -/
theorem layered_shown :
    let grid : Grid Rat := ⟨4, 1, 60, 62⟩
    let view : Viewport Rat := ⟨1, 8, 3⟩
    let overlay : Overlay Rat :=
      ⟨[⟨4, 61, 5 / 4, 1 / 2, 90, "t_piano"⟩], [4], some ⟨4, 1 / 2, 7, 7 / 2⟩, some (3 / 2)⟩
    project layered grid view overlay =
      [[.note 0 false, .note 1 true, .note 1 true, .note 1 true, .note 1 true, .marquee, .marquee,
          .empty false .beat],
        [.empty true .none, .empty true .none, .empty true .none, .marquee, .ghost, .ghost,
          .marquee, .empty true .beat],
        [.empty false .none, .empty false .none, .empty false .none, .marquee, .empty false .none,
          .playhead, .marquee, .empty false .beat]] ∧
    ∃ n ∈ layered.document.notes, layered.isHidden n.track = false ∧ n.id ∉ overlay.replaced ∧
      Covers grid view n 0 2 ∧ 1 = layered.document.trackIndex n.track ∧
      true = layered.selection.contains n.id := by
  intro grid view overlay
  obtain ⟨htable, hnote⟩ := project_eq_shown layered grid view overlay
  refine ⟨?_, hnote 0 2 1 true ?_⟩
  · rw [htable]
    decide +kernel
  · rw [htable]
    decide +kernel

end Roll

end NoteRoll
