import NoteRoll.Proofs.CanvasRows
import NoteRoll.Proofs.FittedWindow

/-!
# Which track a press activates

The list of tracks is drawn from the top down: a border, and below it one row for each
track, as far as there is room. A press goes the other way, from the row to a place in the
list, by taking the border off the row number. The two agree wherever something is drawn.

Where nothing is drawn they should agree too, on doing nothing. Below the last track
there is no place in the list, so nothing happens. On the border it is different: the
difference of the row numbers stops at zero, which is the place of the first track. The
same goes for a list so narrow that its border fills it.

The roll, the velocity lane and the ruler take a press before the list does, and what is
drawn later is drawn below it. `TracksApart` says that this does not matter. Every
layout that the application comes to is of that kind.
-/

namespace NoteRoll

/-! ## Layouts -/

/-- The list of tracks is right of the surfaces that take a press before it does, and
above what is drawn after it. -/
structure ScreenLayout.TracksApart (l : ScreenLayout) : Prop where
  grid : l.grid.x + l.grid.width ≤ l.tracks.x
  ruler : l.ruler.x + l.ruler.width ≤ l.tracks.x
  besideLane : l.lane.x + l.lane.width ≤ l.tracks.x
  lane : l.tracks.y + l.tracks.height ≤ l.lane.y
  status : l.tracks.y + l.tracks.height ≤ l.status.y
  messages : l.tracks.y + l.tracks.height ≤ l.messages.y

namespace ScreenLayout

theorem totalCells_take_succ (sizes : List Nat) (part : Nat) :
    totalCells (sizes.take (part + 1)) = totalCells (sizes.take part) + sizes.getD part 0 := by
  induction sizes generalizing part with
  | nil =>
      rw [List.take_nil, List.take_nil]
      rfl
  | cons cells sizes ih =>
      cases part with
      | zero => exact Nat.add_comm _ _
      | succ part =>
          rw [List.take_succ_cons, List.take_succ_cons, totalCells, totalCells, ih,
            List.getD_cons_succ, Nat.add_assoc]

/-- A part ends where the next one begins. -/
theorem offset_add_getD (start : Nat) (sizes : List Nat) (part : Nat) :
    offset start sizes part + sizes.getD part 0 = offset start sizes (part + 1) := by
  rw [offset, offset, totalCells_take_succ, Nat.add_assoc]

theorem offset_mono (start : Nat) (sizes : List Nat) : Monotone (offset start sizes) :=
  monotone_nat_of_le_succ fun part =>
    (Nat.le_add_right _ _).trans_eq (offset_add_getD start sizes part)

/-- Whatever sizes the parts get, they lie one behind the other. -/
theorem tracksApart_compute [Splitter] (screen : Area) : (compute screen).TracksApart := by
  have hcolumns := (offset_add_getD screen.x (Splitter.sizes screen.width columnParts) 1).le
  have hrows {part : Nat} (h : 2 ≤ part) :=
    (offset_add_getD screen.y (Splitter.sizes screen.height rowParts) 1).trans_le
      (offset_mono screen.y (Splitter.sizes screen.height rowParts) h)
  exact ⟨hcolumns, hcolumns, hcolumns, hrows (by decide), hrows (by decide), hrows (by decide)⟩

/-- Before there is a screen all parts are empty. -/
theorem tracksApart_none : ({} : ScreenLayout).TracksApart := by
  constructor <;> exact Nat.le_refl 0

theorem TracksApart.not_contains {l : ScreenLayout} (h : l.TracksApart) {col row : Nat}
    (hcell : l.tracks.contains col row = true) :
    ¬ l.grid.contains col row = true ∧ ¬ l.lane.contains col row = true ∧
      ¬ l.ruler.contains col row = true := by
  have hgrid := h.grid
  have hruler := h.ruler
  have hlane := h.besideLane
  simp only [Area.contains, decide_eq_true_eq] at hcell ⊢
  omega

end ScreenLayout

namespace App

section Runs

variable {σ α : Type} [Scalar α] [SoundOutput σ α] [NumberText α]

theorem tracksApart_next [Splitter] {a : App σ α} (h : a.layout.TracksApart) (i : Input σ α) :
    (a.next i).layout.TracksApart := by
  by_cases hresize : ∃ screen, i = .resize screen
  · obtain ⟨screen, rfl⟩ := hresize
    rw [next, resize_layout]
    exact ScreenLayout.tracksApart_compute screen
  · have hkeeps := a.next_keepsSpan fun screen hi => hresize ⟨screen, hi⟩
    rw [hkeeps.layout]
    exact h

theorem tracksApart_run [Splitter] {a : App σ α} (h : a.layout.TracksApart)
    (inputs : List (Input σ α)) : (a.run inputs).layout.TracksApart := by
  induction inputs generalizing a with
  | nil => exact h
  | cons i is ih => exact ih (tracksApart_next h i)

end Runs

variable {σ α : Type}

/-! ## What is drawn -/

/-- The track that is drawn on a row of the screen. -/
def trackOn? (a : App σ α) (row : Nat) : Option Track :=
  let area := trackRowsArea a.layout.tracks
  if area.width = 0 then none else area.entryAt? a.session.document.tracks row

theorem entryAt?_trackLines (a : App σ α) (area : Area) (row : Nat) :
    area.entryAt? a.trackLines row =
      (area.entryAt? a.session.document.tracks row).map (a.trackLine (row - area.y)) := by
  rw [Area.entryAt?, Area.entryAt?, trackLines, List.getElem?_mapIdx]
  split
  · rfl
  · rfl

/-- A row of the list shows its track, on what is below the list. -/
theorem drawTracks_row (a : App σ α) (c : Canvas) (row : Nat) :
    let area := trackRowsArea a.layout.tracks
    let under := drawTracksBorder c a.layout.tracks
    (a.drawTracks c).rows[row]? = (a.trackOn? row).elim under.rows[row]? fun t =>
      (under.writeEntry area.x row area.width (a.trackLine (row - area.y) t)).rows[row]? := by
  intro area under
  rw [drawTracks, Canvas.writeEntries_row, entryAt?_trackLines, trackOn?]
  split
  · next hnarrow =>
      rw [hnarrow]
      cases area.entryAt? a.session.document.tracks row with
      | none => rfl
      | some t => exact congrArg (·.rows[row]?) (under.writeEntry_no_room _ _ _)
  · cases area.entryAt? a.session.document.tracks row <;> rfl

/-- What is drawn last is below the list of tracks. -/
theorem drawFoot_row [Scalar α] [NumberText α] (a : App σ α) (h : a.layout.TracksApart)
    (c : Canvas) {row : Nat} (hrow : row < a.layout.tracks.y + a.layout.tracks.height) :
    (a.drawFoot c).rows[row]? = c.rows[row]? := by
  have hlane := hrow.trans_le h.lane
  have hstatus := hrow.trans_le h.status
  have hmessages := hrow.trans_le h.messages
  rw [drawFoot, Canvas.writeLines_row_of_lt _ _ _ hmessages,
    Canvas.writeLines_row_of_lt _ _ _ hstatus, Canvas.restyle_row_of_lt _ _ _ hstatus,
    Canvas.writeLines_row_of_lt _ _ _ hlane]

/-! ## What is pressed -/

/-- The application with another track active. -/
def activate (a : App σ α) (id : TrackId) : App σ α :=
  a.withStudio (a.studio.mapSession fun s => { s with activeTrack := id })

/-- The track at the place in the list that a press on a row counts to. -/
def pressedTrack? (a : App σ α) (row : Nat) : Option Track :=
  a.session.document.tracks[row - (a.layout.tracks.y + 1)]?

theorem pressTracks_eq (a : App σ α) (row : Nat) :
    a.pressTracks row =
      a.activate (((a.pressedTrack? row).map (·.id)).getD a.session.activeTrack) := by
  rw [pressTracks.eq_def, pressedTrack?]
  split
  · next t ht =>
      have hthere : (a.session.document.track? t.id).isSome = true :=
        List.find?_isSome.2 ⟨t, List.mem_of_getElem? ht, beq_self_eq_true t.id⟩
      rw [ht, activate, Studio.mapSession, Studio.mapSession]
      congr 2
      exact congrArg Prod.snd (if_pos hthere)
  · next hnone =>
      rw [hnone]
      rfl

/-- Of the rows of the list those of the border draw no track; nor does any where the border
is all there is. -/
theorem trackOn?_eq {a : App σ α} {row : Nat} (htop : a.layout.tracks.y ≤ row)
    (hbottom : row < a.layout.tracks.y + a.layout.tracks.height) :
    a.trackOn? row = if row = a.layout.tracks.y ∨ a.layout.tracks.width ≤ 1 then none
      else a.pressedTrack? row := by
  have hwidth : (trackRowsArea a.layout.tracks).width = a.layout.tracks.width - 1 := rfl
  have hy : (trackRowsArea a.layout.tracks).y = a.layout.tracks.y + 1 := rfl
  have hheight : (trackRowsArea a.layout.tracks).height = a.layout.tracks.height - 1 := rfl
  rw [trackOn?, Area.entryAt?]
  by_cases hnarrow : a.layout.tracks.width ≤ 1
  · rw [if_pos (by omega), if_pos (.inr hnarrow)]
  · rw [if_neg (by omega)]
    by_cases hborder : row = a.layout.tracks.y
    · rw [if_neg (by omega), if_pos (.inl hborder)]
    · rw [if_pos (by omega), if_neg (by omega)]
      rfl

section Presses

variable [Scalar α] [SoundOutput σ α]

theorem mouseDown_tracks {a : App σ α} (h : a.layout.TracksApart) (button : MouseButton)
    {col row : Nat} (hcell : a.layout.tracks.contains col row = true) :
    a.mouseDown button col row = a.pressTracks row := by
  obtain ⟨hgrid, hlane, hruler⟩ := h.not_contains hcell
  rw [mouseDown, if_neg hgrid, if_neg fun hpressed => hlane (Bool.and_eq_true_iff.1 hpressed).1,
    if_neg hruler, if_pos hcell]

/-- A press on the list of tracks changes the active track and nothing else. Its row of the
screen shows the track that is drawn there, if any. That track becomes active, and where
none is drawn the active track stays, except in two places: on the border row, and in a
list that is all border. There it stays exactly if the track that the press counts to is
active already or does not exist. -/
theorem press_activates_iff [NumberText α] {a : App σ α} (h : a.layout.TracksApart)
    (button : MouseButton) {col row : Nat} (hcell : a.layout.tracks.contains col row = true)
    (c : Canvas) :
    let b := a.mouseDown button col row
    let area := trackRowsArea a.layout.tracks
    let under := drawTracksBorder (a.drawRoll c) a.layout.tracks
    ((a.drawParts c).rows[row]? = (a.trackOn? row).elim under.rows[row]? fun t =>
      (under.writeEntry area.x row area.width (a.trackLine (row - area.y) t)).rows[row]?) ∧
    b = a.activate b.session.activeTrack ∧
    (b.session.activeTrack = ((a.trackOn? row).map (·.id)).getD a.session.activeTrack ↔
      (row = a.layout.tracks.y ∨ a.layout.tracks.width = 1 →
        ∀ t ∈ a.session.document.tracks[row - area.y]?, t.id = a.session.activeTrack)) := by
  intro b area under
  have hb : b = a.activate (((a.pressedTrack? row).map (·.id)).getD a.session.activeTrack) :=
    (mouseDown_tracks h button hcell).trans (a.pressTracks_eq row)
  have hactive : b.session.activeTrack =
      ((a.pressedTrack? row).map (·.id)).getD a.session.activeTrack :=
    congrArg (fun b => b.session.activeTrack) hb
  obtain ⟨hleft, hright, htop, hbottom⟩ := of_decide_eq_true hcell
  refine ⟨?_, ?_, ?_⟩
  · rw [drawParts, a.drawFoot_row h _ hbottom]
    exact a.drawTracks_row (a.drawRoll c) row
  · rw [hactive]
    exact hb
  · rw [hactive, trackOn?_eq htop hbottom]
    show _ ↔ (_ → ∀ t ∈ a.pressedTrack? row, t.id = a.session.activeTrack)
    have hwidth : (row = a.layout.tracks.y ∨ a.layout.tracks.width ≤ 1) ↔
        (row = a.layout.tracks.y ∨ a.layout.tracks.width = 1) := by omega
    by_cases hbare : row = a.layout.tracks.y ∨ a.layout.tracks.width = 1
    · rw [if_pos (hwidth.2 hbare)]
      cases a.pressedTrack? row with
      | none => simp
      | some t => simp [hbare]
    · rw [if_neg (mt hwidth.1 hbare)]
      exact ⟨fun _ hbare' => absurd hbare' hbare, fun _ => rfl⟩

end Presses

/-- On the screen of the usual layout, the second row below the border is the bass. -/
theorem bass_pressed :
    let a := framed 40
    let area := trackRowsArea a.layout.tracks
    let under := drawTracksBorder (a.drawRoll (.blank 100 40)) a.layout.tracks
    let bass : Track := ⟨"t_bass", "Finger Bass", .instrument, false⟩
    a.layout.TracksApart ∧ a.layout.tracks.contains 80 3 = true ∧
    (a.drawParts (.blank 100 40)).rows[3]? =
      (under.writeEntry area.x 3 area.width (a.trackLine (3 - area.y) bass)).rows[3]? ∧
    (a.mouseDown .right 80 3).session.activeTrack = "t_bass" := by
  intro a area under bass
  have hapart : a.layout.TracksApart := tracksApart_run ScreenLayout.tracksApart_none _
  have hcell : a.layout.tracks.contains 80 3 = true := by decide +kernel
  have hbass : a.trackOn? 3 = some bass := by decide +kernel
  have hinside : ¬ (3 = a.layout.tracks.y ∨ a.layout.tracks.width = 1) := by decide +kernel
  obtain ⟨hdrawn, -, hactive⟩ := press_activates_iff hapart .right hcell (.blank 100 40)
  rw [hbass, Option.elim_some] at hdrawn
  rw [hbass] at hactive
  exact ⟨hapart, hcell, hdrawn, hactive.2 fun hbare => absurd hbare hinside⟩

/-- With the bass active a press on the border makes the piano active. -/
theorem border_pressed :
    let a := (framed 40).run [.action .nextTrack]
    a.layout.tracks.contains 80 1 = true ∧ a.layout.tracks.y = 1 ∧ (a.trackOn? 1).isNone = true ∧
    a.session.activeTrack = "t_bass" ∧
    (a.mouseDown .left 80 1).session.activeTrack = "t_piano" := by
  decide +kernel

end App

end NoteRoll
