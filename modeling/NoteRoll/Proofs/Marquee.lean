import NoteRoll.Proofs.DragPaths
import NoteRoll.Proofs.Ordering

/-!
# What a marquee selects

A marquee is spanned between the point where the pointer went down and the one where it is
now, in whichever direction, and selects the notes whose boxes it overlaps. The corners are
put in order with `larger` and `smaller`, and these do not say which operand they return
when the two do not compare. They may return two different zeros for the same two points,
so the rectangles of a marquee and of the one spanned backwards are not equal. What they
overlap is the same, because a box overlaps the rectangle just if each of its sides is
beyond one of the two points, no matter which; `overlaps_between_iff` is this form, and it
is symmetric on sight.

Whether a note is on the active track does not matter, only whether it is on a hidden one.
-/

namespace NoteRoll

variable {α : Type} [Scalar α]

/-! ## Rectangles -/

namespace Rect

/-- Two rectangles have more than an edge in common. -/
def Overlaps (r r' : Rect α) : Prop :=
  (r.x0 < r'.x1 ∧ r'.x0 < r.x1) ∧ r.y0 < r'.y1 ∧ r'.y0 < r.y1

instance instDecidableOverlaps (r r' : Rect α) : Decidable (r.Overlaps r') :=
  inferInstanceAs (Decidable ((r.x0 < r'.x1 ∧ r'.x0 < r.x1) ∧ r.y0 < r'.y1 ∧ r'.y0 < r.y1))

/-- A rectangle lies inside another, edges included. -/
structure Within (r r' : Rect α) : Prop where
  left : r'.x0 ≤ r.x0
  top : r'.y0 ≤ r.y0
  right : r.x1 ≤ r'.x1
  bottom : r.y1 ≤ r'.y1

variable [Scalar.Ordered α]

open Scalar.Ordered

theorem Within.overlaps {box r r' : Rect α} (h : r.Within r') (hbox : box.Overlaps r) :
    box.Overlaps r' := by
  obtain ⟨⟨hx0, hx1⟩, hy0, hy1⟩ := hbox
  exact ⟨⟨lt_of_lt_of_le hx0 h.right, lt_of_le_of_lt h.left hx1⟩,
    lt_of_lt_of_le hy0 h.bottom, lt_of_le_of_lt h.top hy1⟩

/-- Each side of the box is beyond one of the points. -/
theorem overlaps_between_iff {box : Rect α} {a b : Point α} :
    box.Overlaps (between a b) ↔
      ((box.x0 < a.x ∨ box.x0 < b.x) ∧ (a.x < box.x1 ∨ b.x < box.x1)) ∧
        (box.y0 < a.y ∨ box.y0 < b.y) ∧ (a.y < box.y1 ∨ b.y < box.y1) :=
  and_congr (and_congr lt_larger smaller_lt) (and_congr lt_larger smaller_lt)

theorem overlaps_between_comm {box : Rect α} {a b : Point α} :
    box.Overlaps (between a b) ↔ box.Overlaps (between b a) := by
  rw [overlaps_between_iff, overlaps_between_iff, or_comm, or_comm (a := a.x < box.x1),
    or_comm (a := box.y0 < a.y), or_comm (a := a.y < box.y1)]

end Rect

/-! ## The release -/

/-- The pixels of a note: from its onset to its end, one row high. -/
def Grid.box (grid : Grid α) (n : Note α) : Rect α where
  x0 := grid.beatToX n.start
  y0 := grid.pitchToY n.pitch
  x1 := grid.beatToX n.stop
  y1 := grid.pitchToY n.pitch + grid.rowHeight

/-- The notes on tracks that are shown, active or not, whose boxes overlap a rectangle. -/
def Session.caught (s : Session α) (grid : Grid α) (r : Rect α) : List (Note α) :=
  s.document.notes.filter fun n => !s.isHidden n.track && decide ((grid.box n).Overlaps r)

theorem Session.mem_caught {s : Session α} {grid : Grid α} {r : Rect α} {n : Note α} :
    n ∈ s.caught grid r ↔
      n ∈ s.document.notes ∧ s.isHidden n.track = false ∧ (grid.box n).Overlaps r := by
  rw [caught, List.mem_filter, Bool.and_eq_true, Bool.not_eq_true', decide_eq_true_iff]

theorem Session.caught_between_comm [Scalar.Ordered α] (s : Session α) (grid : Grid α)
    (a b : Point α) : s.caught grid (.between a b) = s.caught grid (.between b a) := by
  refine List.filter_congr fun n _ => ?_
  rw [decide_eq_decide.2 Rect.overlaps_between_comm]

namespace GestureEditor

theorem touches_eq (e : GestureEditor α) (n : Note α) (r : Rect α) :
    e.touches n r = decide ((e.grid.box n).Overlaps r) := by
  rw [Bool.eq_iff_iff, decide_eq_true_iff]
  simp only [touches, Grid.box, Rect.Overlaps, Bool.and_eq_true, decide_eq_true_eq, and_assoc]

theorem pointerUp_marquee {e : GestureEditor α} {anchor cursor : Point α}
    (h : e.gesture = .marquee anchor cursor) (s : Session α) :
    let caught := s.caught e.grid (.between anchor cursor)
    e.pointerUp s = (.selected caught.length, e.cancel,
      { s with selection := .ofList (caught.map (·.id)) }) := by
  have hcaught : (s.visibleNotes.filter fun n => e.touches n (.between anchor cursor)) =
      s.caught e.grid (.between anchor cursor) := by
    rw [Session.visibleNotes, List.filter_filter, Session.caught]
    refine List.filter_congr fun n _ => ?_
    rw [touches_eq, Bool.and_comm]
  intro caught
  obtain ⟨gesture, grid, edgeMargin⟩ := e
  obtain rfl : gesture = .marquee anchor cursor := h
  simp only [pointerUp, hcaught, List.length_map, cancel, caught]

/-- The end of a marquee selects the notes on tracks that are shown whose boxes overlap
the rectangle, and no others, says how many they are, and changes nothing else of the
session. Spanned the other way round the marquee does the same, and one with a rectangle
around its own selects all that it selects. -/
theorem marquee_selects_overlapped [Scalar.Ordered α] {e : GestureEditor α}
    {anchor cursor : Point α} (h : e.gesture = .marquee anchor cursor) (s : Session α) :
    let r := Rect.between anchor cursor
    (e.pointerUp s).1 = .selected (s.caught e.grid r).length ∧
    (e.pointerUp s).2.1 = e.cancel ∧
    (∃ selection, (e.pointerUp s).2.2 = { s with selection } ∧
      ∀ id, id ∈ selection.ids ↔ ∃ n ∈ s.document.notes,
        s.isHidden n.track = false ∧ (e.grid.box n).Overlaps r ∧ n.id = id) ∧
    { e with gesture := .marquee cursor anchor }.pointerUp s = e.pointerUp s ∧
    ∀ anchor' cursor', r.Within (.between anchor' cursor') →
      ∀ id ∈ (e.pointerUp s).2.2.selection.ids,
        id ∈ ({ e with gesture := .marquee anchor' cursor' }.pointerUp s).2.2.selection.ids := by
  intro r
  have hselected : ∀ (r : Rect α) id,
      id ∈ (Selection.ofList ((s.caught e.grid r).map (·.id))).ids ↔ ∃ n ∈ s.document.notes,
        s.isHidden n.track = false ∧ (e.grid.box n).Overlaps r ∧ n.id = id := by
    intro r id
    simp only [Selection.mem_ofList, List.mem_map, Session.mem_caught, and_assoc]
  rw [pointerUp_marquee h s]
  refine ⟨rfl, rfl, ⟨_, rfl, hselected r⟩, ?_, fun anchor' cursor' hwithin id hid => ?_⟩
  · rw [pointerUp_marquee rfl s, s.caught_between_comm _ cursor anchor]
    rfl
  · obtain ⟨n, hn, hshown, hover, hnid⟩ := (hselected r id).1 hid
    rw [pointerUp_marquee rfl s]
    exact (hselected _ id).2 ⟨n, hn, hshown, hwithin.overlaps hover, hnid⟩

end GestureEditor

/-- A marquee leads from the point where the pointer went down to where it went last. -/
theorem Studio.marquee_of_drag {σ : Type} [NumberText α] [SoundOutput σ α] {s : Studio σ α}
    {anchor : Point α} (htool : s.session.tool = .select) (hidle : s.gestures.isIdle = true)
    (hempty : s.gestures.hitTest? s.session anchor = none) {before : List (Event α)}
    (hdrags : ∀ e ∈ before, e.drags = true) (cursor : Point α) :
    (s.run (.gridDown anchor .primary :: (before ++ [.gridMove cursor]))).gestures.gesture =
      .marquee anchor cursor := by
  have hpress : (s.next (.gridDown anchor .primary)).gestures.gesture = .marquee anchor anchor := by
    show (s.gestures.pointerDown s.session anchor .primary).editor.gesture = _
    rw [GestureEditor.pointerDown, if_pos hidle, hempty]
    simp only [GestureEditor.pressEmpty, htool]
  rw [run_cons, gesture_of_drag _ hdrags, hpress]
  rfl

/-- Four notes, the second of them on a hidden track. -/
def partlyHidden : Studio (Recorder Float) Float where
  session := { Session.start { Document.empty Track.defaults 120.0 with
    notes := [⟨1, 60, 0.0, 1.0, 90, "t_piano"⟩, ⟨2, 60, 2.0, 1.0, 90, "t_bass"⟩,
      ⟨3, 62, 2.0, 1.0, 90, "t_kick"⟩, ⟨4, 60, 3.0, 1.0, 90, "t_piano"⟩] } with
    tool := .select, hidden := ["t_bass"] }
  gestures := .ofGrid .standard 6.0
  velocities := .ofLane .standard
  transport := .ofTiming .standard
  output := .start true 0.0

/-- Spanned to the upper left, from the edge of the fourth note into the first one. -/
def lassoed : Studio (Recorder Float) Float :=
  partlyHidden.run
    [.gridDown ⟨120.0, 900.0⟩ .primary, .gridMove ⟨500.0, 40.0⟩, .gridMove ⟨30.0, 830.0⟩]

theorem lassoed_selects :
    lassoed.gestures.gesture = .marquee ⟨120.0, 900.0⟩ ⟨30.0, 830.0⟩ ∧
    (lassoed.gestures.pointerUp lassoed.session).1 = .selected 2 ∧
    (lassoed.gestures.pointerUp lassoed.session).2.2.selection.ids = [1, 3] ∧
    { lassoed.gestures with gesture := .marquee ⟨30.0, 830.0⟩ ⟨120.0, 900.0⟩ }.pointerUp
      lassoed.session = lassoed.gestures.pointerUp lassoed.session ∧
    ∀ id ∈ [1, 3], id ∈ ({ lassoed.gestures with
      gesture := .marquee ⟨0.0, 900.0⟩ ⟨121.0, 830.0⟩ }.pointerUp
        lassoed.session).2.2.selection.ids := by
  have hempty : partlyHidden.gestures.hitTest? partlyHidden.session ⟨120.0, 900.0⟩ = none :=
    Option.isNone_iff_eq_none.1 (by decide +kernel)
  have htool : partlyHidden.session.tool = .select := rfl
  have hidle : partlyHidden.gestures.isIdle = true := rfl
  have hdrags : ∀ e ∈ [Event.gridMove (⟨500.0, 40.0⟩ : Point Float)], e.drags = true :=
    List.forall_mem_singleton.2 rfl
  have hrun : lassoed = partlyHidden.run (.gridDown ⟨120.0, 900.0⟩ .primary ::
      ([.gridMove ⟨500.0, 40.0⟩] ++ [.gridMove ⟨30.0, 830.0⟩])) := rfl
  have hgesture : lassoed.gestures.gesture = .marquee ⟨120.0, 900.0⟩ ⟨30.0, 830.0⟩ := by
    rw [hrun]
    exact Studio.marquee_of_drag htool hidle hempty hdrags ⟨30.0, 830.0⟩
  obtain ⟨hcount, -, -, hback, hwider⟩ :=
    GestureEditor.marquee_selects_overlapped hgesture lassoed.session
  have hids : (lassoed.gestures.pointerUp lassoed.session).2.2.selection.ids = [1, 3] := by
    decide +kernel
  have hwithin : (Rect.between ⟨120.0, 900.0⟩ ⟨30.0, 830.0⟩ : Rect Float).Within
      (.between ⟨0.0, 900.0⟩ ⟨121.0, 830.0⟩) := by
    constructor <;> decide +kernel
  have htwo : (lassoed.session.caught lassoed.gestures.grid
      (.between ⟨120.0, 900.0⟩ ⟨30.0, 830.0⟩)).length = 2 := by decide +kernel
  rw [htwo] at hcount
  exact ⟨hgesture, hcount, hids, hback, hids ▸ hwider _ _ hwithin⟩

end NoteRoll
