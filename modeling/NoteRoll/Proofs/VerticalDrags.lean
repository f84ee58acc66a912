import Mathlib
import NoteRoll.Proofs.CheckedRuns
import NoteRoll.Proofs.DragPaths
import NoteRoll.Proofs.PaintedCells
import NoteRoll.Proofs.Taps
import NoteRoll.Proofs.WholeParts

/-!
# How high a drag goes

A pitch that is dragged is computed in 32 signed bits: the row of the pointer, which is cut to as
many, is taken from the highest pitch, and what comes of it is shifted and added to the
pitches that were captured. Only then is the result brought back into view. Where all sums stay
in range, the higher the pointer is, the higher are the notes, until they rest on the highest pitch
that is visible.

The sums do not stay in range everywhere. A row is cut at the least number of 32 bits, and
a distance counted up from there is above the greatest: a note that is dragged above everything
stops the program. Each move and each look at the ghosts has checks of its own, and `Grid.Reaches`
is what they come to together: an upper bound on the height of the pointer, and a lower one that
only a note grabbed above the view can miss.
-/

namespace NoteRoll

/-! ## Rows -/

/-- The laws of rows: finite pixels have quotients, which keep the order, and so do the
whole numbers that these are cut to. -/
class Scalar.OrderedRows (α : Type) [Scalar α] : Prop where
  number_div : ∀ {y h : α}, isFinite y = true → 0 < h → (y / h == y / h) = true
  div_le_div : ∀ {y z h : α}, 0 < h → y ≤ z → (y / h == y / h) = true → (z / h == z / h) = true →
    y / h ≤ z / h
  truncate_floor_le : ∀ {x y : α}, x ≤ y → truncateInt32 (floor x) ≤ truncateInt32 (floor y)
  truncate_le : ∀ x : α, truncateInt32 x ≤ 2147483647

instance Scalar.instOrderedRowsFloat : Scalar.OrderedRows Float where
  number_div hy hh := Binary64.number_div hy hh
  div_le_div hh hyz hy hz := Binary64.div_le_div hh hyz hy hz
  truncate_floor_le {x y} hxy := by
    obtain ⟨v, hv, w, hw, hvw⟩ := Binary64.le_iff_value.1 hxy
    have hfloor := Int.floor_mono hvw
    rw [truncateInt32, truncateInt32, Binary64.truncate_floor hv (by decide) (by decide),
      Binary64.truncate_floor hw (by decide) (by decide)]
    omega
  truncate_le x := max_le (by decide) (min_le_left _ _)

instance Scalar.instOrderedRowsRat : Scalar.OrderedRows Rat where
  number_div _ _ := beq_self_eq_true _
  div_le_div hh hyz _ _ := div_le_div_of_nonneg_right hyz hh.le
  truncate_floor_le {x y} hxy := by
    have hfloor := Rat.floor_monotone hxy
    rw [truncateInt32, truncateInt32, truncate_floor, truncate_floor]
    omega
  truncate_le x := max_le (by decide) (min_le_left _ _)

variable {α : Type} [Scalar α]

theorem Grid.rowAt_le_rowAt [Scalar.OrderedRows α] {grid : Grid α} (hheight : 0 < grid.rowHeight)
    {y z : α} (hy : Scalar.isFinite y = true) (hz : Scalar.isFinite z = true) (hzy : z ≤ y) :
    grid.rowAt z ≤ grid.rowAt y :=
  Scalar.OrderedRows.truncate_floor_le (Scalar.OrderedRows.div_le_div hheight hzy
    (Scalar.OrderedRows.number_div hz hheight) (Scalar.OrderedRows.number_div hy hheight))

/-! ## How far a drag reaches -/

/-- The distance in pitch by which a note is dragged whose row comes to a pixel. -/
def Grid.shiftAt (grid : Grid α) (anchor : Note α) (y : α) : Int :=
  grid.highPitch - grid.rowAt y - anchor.pitch

/-- A pixel is near enough for all notes to be dragged to it. -/
structure Grid.Reaches (grid : Grid α) (captured : List (Note α)) (anchor : Note α) (y : α) :
    Prop where
  down : -2147483648 ≤ grid.shiftAt anchor y
  up : ∀ m ∈ captured, m.pitch + grid.shiftAt anchor y ≤ 2147483647

instance Grid.instDecidableReaches (grid : Grid α) (captured : List (Note α)) (anchor : Note α)
    (y : α) : Decidable (grid.Reaches captured anchor y) :=
  decidable_of_iff (-2147483648 ≤ grid.shiftAt anchor y ∧
      ∀ m ∈ captured, m.pitch + grid.shiftAt anchor y ≤ 2147483647)
    ⟨fun ⟨hdown, hup⟩ => ⟨hdown, hup⟩, fun h => ⟨h.down, h.up⟩⟩

namespace Grid

variable {grid : Grid α} {captured : List (Note α)} {anchor : Note α} {y : α}

/-- Nothing but the two bounds is checked: what is computed first is between what is
computed last. -/
theorem reaches_iff (hanchor : anchor ∈ captured) : grid.Reaches captured anchor y ↔
    Pitch.InRange (grid.highPitch - grid.rowAt y) ∧ Pitch.InRange (grid.shiftAt anchor y) ∧
      ∀ m ∈ captured, Pitch.InRange (m.pitch + grid.shiftAt anchor y) := by
  have hshift : (anchor.pitch : Int) + grid.shiftAt anchor y = grid.highPitch - grid.rowAt y := by
    rw [shiftAt]
    omega
  constructor
  · rintro ⟨hdown, hup⟩
    have htop := hup anchor hanchor
    refine ⟨⟨by omega, by omega⟩, ⟨hdown, by omega⟩, fun m hm => ⟨by omega, hup m hm⟩⟩
  · rintro ⟨-, hshift, hall⟩
    exact ⟨hshift.1, fun m hm => (hall m hm).2⟩

/-- Playable pitches can be dragged by two thousand million rows, up and down. -/
theorem reaches_of_playable (hhigh : grid.highPitch ≤ Pitch.highest)
    (hplayable : ∀ m ∈ captured, m.pitch ≤ Pitch.highest) (hanchor : anchor ∈ captured)
    (hup : -2000000000 ≤ grid.rowAt y) (hdown : grid.rowAt y ≤ 2000000000) :
    grid.Reaches captured anchor y := by
  rw [Pitch.highest] at hhigh hplayable
  have hpitch := hplayable anchor hanchor
  refine ⟨?_, fun m hm => ?_⟩
  · rw [shiftAt]
    omega
  · have hpitch' := hplayable m hm
    rw [shiftAt]
    omega

end Grid

/-! ## Drags -/

/-- The distance that a grabbed note is moved by passes its checks where it is in range, and so is
the pitch of the pointer. -/
theorem Gesture.deltaPitch?_eq (grid : Grid α) (n : Note α) (y : α) :
    deltaPitch? grid n 0 y =
      if Pitch.InRange (grid.highPitch - grid.rowAt y) ∧ Pitch.InRange (grid.shiftAt n y) then
        some (grid.shiftAt n y) else none := by
  rw [deltaPitch?, Grid.yToPitch?]
  by_cases hrow : Pitch.InRange (grid.highPitch - grid.rowAt y)
  · simp only [Pitch.checked?_of_inRange hrow, Option.bind_eq_bind, Option.bind_some, Int.sub_zero,
      hrow, true_and]
    rfl
  · rw [Pitch.checked?_eq_none hrow]
    exact (if_neg fun h => hrow h.1).symm

/-- What moves are made with stays the same through them. -/
theorem Gesture.Follows.grabbed?_eq {g g' : Gesture α} (h : g.Follows g') :
    g'.grabbed? = g.grabbed? := by
  induction h with
  | start => rfl
  | move _ hmove ih =>
      rw [← ih]
      rcases moveTo?_forms hmove with ⟨_, _, _, rfl, rfl⟩ | ⟨_, _, _, _, _, _, _, _, rfl, rfl⟩ |
        ⟨_, _, _, _, _, rfl, rfl⟩ | ⟨_, _, rfl, rfl⟩ <;> rfl

/-- The pitches that the ghosts of a drag have once the pointer has come to a point. -/
def GestureEditor.pitchesAt? (d : GestureEditor α) (session : Session α) (p : Point α) :
    Option (List Nat) :=
  (d.pointerMove? session p).bind fun moved =>
    (moved.2.ghosts? session).map fun ghosts => ghosts.map (·.pitch)

section Drags

variable {grid : Grid α} {session : Session α} {captured : List (Note α)} {anchor : Note α}
  {grabbed : NoteId} {beatOffset deltaBeat : α} {deltaPitch : Int} {d : GestureEditor α}

/-- Where the distance is in range, what remains to be checked is each note's own sum. -/
theorem Gesture.Follows.ghosts?_moved
    (hd : (Gesture.moving grabbed captured beatOffset 0 deltaBeat deltaPitch).Follows d.gesture)
    (hfind : (captured.find? fun n => n.id == grabbed) = some anchor) {p : Point α}
    (hrow : Pitch.InRange (d.grid.highPitch - d.grid.rowAt p.y))
    (hshift : Pitch.InRange (d.grid.shiftAt anchor p.y)) :
    (d.pointerMove session p).2.ghosts? session =
      if ∀ m ∈ captured, Pitch.InRange (m.pitch + d.grid.shiftAt anchor p.y) then
        some (captured.map (moveNote d.grid
          (Snap.snap (d.grid.xToBeat p.x - beatOffset) session.snap - anchor.start)
          (d.grid.shiftAt anchor p.y)))
      else none := by
  have hwrap : Pitch.wrap (d.grid.yToPitch p.y - 0 - anchor.pitch) =
      d.grid.shiftAt anchor p.y := by
    rw [Grid.yToPitch, Pitch.wrap_of_inRange hrow, Int.sub_zero]
    exact Pitch.wrap_of_inRange hshift
  have hmoved : d.gesture.moveTo? d.grid session p = some (.moving grabbed captured beatOffset 0
      (Snap.snap (d.grid.xToBeat p.x - beatOffset) session.snap - anchor.start)
      (d.grid.shiftAt anchor p.y)) := by
    rw [hd.moveTo?_eq]
    simp only [moveTo?, hfind, hwrap]
  rw [GestureEditor.pointerMove_editor, hmoved]
  exact mapM_ite (moveNote?_eq _ _ _) _

/-- A drag goes on just as far as its notes are reached, and no sum comes round before. -/
theorem Gesture.Follows.pitchesAt?_eq
    (hd : (Gesture.moving grabbed captured beatOffset 0 deltaBeat deltaPitch).Follows d.gesture)
    (hfind : (captured.find? fun n => n.id == grabbed) = some anchor) (p : Point α) :
    d.pitchesAt? session p =
      if d.grid.Reaches captured anchor p.y then
        some (captured.map fun m => d.grid.clampPitch (m.pitch + d.grid.shiftAt anchor p.y))
      else none := by
  have hgrabbed : d.gesture.grabbed? = some (anchor, 0) := by
    rw [hd.grabbed?_eq, grabbed?, hfind]
    rfl
  have hchecks : d.pitchesAt? session p = (deltaPitch? d.grid anchor 0 p.y).bind fun _ =>
      ((d.pointerMove session p).2.ghosts? session).map fun ghosts => ghosts.map (·.pitch) := by
    rw [GestureEditor.pitchesAt?, GestureEditor.pointerMove?, hgrabbed]
    exact Option.bind_map ..
  rw [hchecks, deltaPitch?_eq]
  simp only [Grid.reaches_iff (List.mem_of_find?_eq_some hfind), ← and_assoc]
  by_cases hdelta : Pitch.InRange (d.grid.highPitch - d.grid.rowAt p.y) ∧
      Pitch.InRange (d.grid.shiftAt anchor p.y)
  · rw [if_pos hdelta, Option.bind_some, hd.ghosts?_moved hfind hdelta.1 hdelta.2]
    by_cases hall : ∀ m ∈ captured, Pitch.InRange (m.pitch + d.grid.shiftAt anchor p.y)
    · rw [if_pos hall, if_pos ⟨hdelta, hall⟩, Option.map_some, List.map_map]
      refine congrArg some (List.map_congr_left fun m hm => ?_)
      show d.grid.clampPitch (Pitch.wrap (m.pitch + _)) = _
      rw [Pitch.wrap_of_inRange (hall m hm)]
    · rw [if_neg hall, if_neg fun h => hall h.2]
      rfl
  · rw [if_neg hdelta, if_neg fun h => hdelta h.1]
    rfl

omit [Scalar α] in
theorem Grid.clampPitch_mono {pitch pitch' : Int} (h : pitch ≤ pitch') :
    grid.clampPitch pitch ≤ grid.clampPitch pitch' := by
  rw [clampPitch, clampPitch]
  omega

omit [Scalar α] in
theorem Grid.clampPitch_of_le (hordered : grid.lowPitch ≤ grid.highPitch) {pitch : Int}
    (h : grid.highPitch ≤ pitch) : grid.clampPitch pitch = grid.highPitch := by
  rw [clampPitch]
  omega

/-- Of two pixels the lower one has the lower pitch, and one in range if the upper one has. -/
theorem Grid.yToPitch?_le_yToPitch? [Scalar.OrderedRows α] (hheight : 0 < grid.rowHeight) {y z : α}
    (hy : Scalar.isFinite y = true) (hz : Scalar.isFinite z = true) (hzy : z ≤ y) {upper : Int}
    (hupper : grid.yToPitch? z = some upper) :
    ∃ lower ≤ upper, grid.yToPitch? y = some lower := by
  have hrow := rowAt_le_rowAt hheight hy hz hzy
  have hbottom : grid.rowAt y ≤ 2147483647 := Scalar.OrderedRows.truncate_le _
  obtain ⟨hrange, rfl⟩ := Pitch.checked?_eq_some_iff.1 hupper
  have hhigh := hrange.2
  exact ⟨_, by omega, Pitch.checked?_of_inRange ⟨by omega, by omega⟩⟩

end Drags

namespace GestureEditor

variable {e : GestureEditor α} {s : Session α} {p : Point α} {n : Note α}
  {button : PointerButton}

/-- A note is grabbed in its own row, so no distance in pitch is kept from the pointer. -/
theorem beginMove_gesture (hhit : e.hitTest? s p = some n) :
    (e.beginMove s p n).editor.gesture = .moving n.id
      (s.document.notes.filter fun m => (e.beginMove s p n).session.selection.contains m.id)
      (e.grid.xToBeat p.x - n.start) 0 0 0 := by
  have hmem := (List.mem_filter.1 (List.mem_of_getLast? hhit)).2
  have hpitch : (n.pitch : Int) = e.grid.yToPitch p.y := by
    simp only [Bool.and_eq_true, beq_iff_eq] at hmem
    exact hmem.1.1
  show Gesture.moving n.id _ _ (Pitch.wrap (e.grid.yToPitch p.y - n.pitch)) 0 0 = _
  rw [hpitch, Int.sub_self]
  rfl

/-- Among the notes that are captured is one of the identity that was grabbed. -/
theorem exists_anchor (hhit : e.hitTest? s p = some n) :
    ∃ anchor ∈ s.document.notes.filter fun m =>
        (e.beginMove s p n).session.selection.contains m.id,
      anchor.id = n.id ∧
      ((s.document.notes.filter fun m =>
        (e.beginMove s p n).session.selection.contains m.id).find? fun m => m.id == n.id) =
          some anchor := by
  have hselected : (e.beginMove s p n).session.selection.contains n.id = true := by
    show (if s.selection.contains n.id then s.selection else .only n.id).contains n.id = true
    split
    · next h => exact h
    · exact List.contains_iff_mem.2 (List.mem_singleton.2 rfl)
  obtain ⟨anchor, hanchor, hid, hfind⟩ := exists_first (mem_of_hitTest? hhit)
  refine ⟨anchor, List.mem_filter.2 ⟨hanchor, hid ▸ hselected⟩, hid, ?_⟩
  rw [find?_captured _ hselected, hfind]

/-- A press that grabs a note to move it lets it be dragged, by whatever moves on the way,
as far up as the pitches of all notes that were captured stay in 32 bits, and no further; for
playable pitches that is two thousand million rows and more. As far as it goes, a drag further up
lowers no note, and a note that comes above the view rests on the highest pitch of it. -/
theorem dragged_upwards [Scalar.OrderedRows α] (hhit : e.hitTest? s p = some n)
    (hmove : e.pointerDown s p button = e.beginMove s p n) {d : GestureEditor α}
    (hd : (e.pointerDown s p button).editor.gesture.Follows d.gesture) (session : Session α)
    (hheight : 0 < d.grid.rowHeight) (hordered : d.grid.lowPitch ≤ d.grid.highPitch) :
    let captured := s.document.notes.filter fun m =>
      (e.pointerDown s p button).session.selection.contains m.id
    (∀ y z, Scalar.isFinite y = true → Scalar.isFinite z = true → z ≤ y →
      ∀ upper, d.grid.yToPitch? z = some upper →
        ∃ lower ≤ upper, d.grid.yToPitch? y = some lower) ∧
    ∃ anchor ∈ captured, anchor.id = n.id ∧
      (∀ q : Point α, d.pitchesAt? session q =
        if d.grid.Reaches captured anchor q.y then
          some (captured.map fun m => d.grid.clampPitch (m.pitch + d.grid.shiftAt anchor q.y))
        else none) ∧
      (d.grid.highPitch ≤ Pitch.highest → (∀ m ∈ captured, m.pitch ≤ Pitch.highest) →
        ∀ q : Point α, -2000000000 ≤ d.grid.rowAt q.y → d.grid.rowAt q.y ≤ 2000000000 →
          (d.pitchesAt? session q).isSome = true) ∧
      (∀ (q q' : Point α) (lower upper : List Nat), Scalar.isFinite q.y = true →
        Scalar.isFinite q'.y = true → q'.y ≤ q.y → d.pitchesAt? session q = some lower →
        d.pitchesAt? session q' = some upper → List.Forall₂ (· ≤ ·) lower upper) ∧
      ∀ (q : Point α) (pitches : List Nat), d.pitchesAt? session q = some pitches →
        List.Forall₂ (fun m pitch => d.grid.rowAt q.y + anchor.pitch ≤ m.pitch →
          pitch = d.grid.highPitch) captured pitches := by
  intro captured
  refine ⟨fun y z hy hz hzy upper => Grid.yToPitch?_le_yToPitch? hheight hy hz hzy, ?_⟩
  obtain ⟨anchor, hanchor, hid, hfind⟩ := exists_anchor hhit
  rw [← hmove] at hanchor hfind
  have hgesture := beginMove_gesture hhit
  rw [← hmove] at hgesture
  rw [hgesture] at hd
  have hpitches (q : Point α) : d.pitchesAt? session q = if d.grid.Reaches captured anchor q.y then
      some (captured.map fun m => d.grid.clampPitch (m.pitch + d.grid.shiftAt anchor q.y))
    else none := hd.pitchesAt?_eq hfind q
  have hsome {q : Point α} {pitches : List Nat} (h : d.pitchesAt? session q = some pitches) :
      pitches = captured.map fun m => d.grid.clampPitch (m.pitch + d.grid.shiftAt anchor q.y) := by
    rw [hpitches] at h
    split at h
    · exact (Option.some.inj h).symm
    · cases h
  refine ⟨anchor, hanchor, hid, hpitches, fun hhigh hplayable q hup hdown => ?_,
    fun q q' lower upper hy hy' hle hlower hupper => ?_, fun q pitches h => ?_⟩
  · rw [hpitches, if_pos (Grid.reaches_of_playable hhigh hplayable hanchor hup hdown)]
    rfl
  · rw [hsome hlower, hsome hupper, List.forall₂_map_left_iff, List.forall₂_map_right_iff]
    refine List.forall₂_same.2 fun m _ => Grid.clampPitch_mono ?_
    have hrow := Grid.rowAt_le_rowAt hheight hy hy' hle
    rw [Grid.shiftAt, Grid.shiftAt]
    omega
  · rw [hsome h, List.forall₂_map_right_iff]
    refine List.forall₂_same.2 fun m _ habove => Grid.clampPitch_of_le hordered ?_
    rw [Grid.shiftAt]
    omega

/-- Two notes are dragged in an octave, the lower one of them beyond the top. -/
theorem pair_dragged_upwards :
    let s := pairSession 67
    let d := (octaveEditor.pointerDown s ⟨20.0, 156.0⟩ .primary).editor
    d.pitchesAt? s ⟨20.0, 132.0⟩ = some [66, 68] ∧ d.pitchesAt? s ⟨20.0, 36.0⟩ = some [70, 71] ∧
      d.pitchesAt? s ⟨20.0, -1000.0⟩ = some [71, 71] ∧
      d.grid.yToPitch? (-1000.0) = some 113 ∧ (∃ lower ≤ 113, d.grid.yToPitch? 36.0 = some lower) ∧
      List.Forall₂ (· ≤ ·) [66, 68] [71, 71] := by
  intro s d
  -- All these begin with the same press, which is carried out once.
  obtain ⟨hsome, hids, hheight, hlow, hmiddle, htop, hpitch⟩ :
      (octaveEditor.hitTest? s ⟨20.0, 156.0⟩).isSome = true ∧
      d.gesture.ghostIds.length = 2 ∧ 0 < d.grid.rowHeight ∧
      d.pitchesAt? s ⟨20.0, 132.0⟩ = some [66, 68] ∧ d.pitchesAt? s ⟨20.0, 36.0⟩ = some [70, 71] ∧
      d.pitchesAt? s ⟨20.0, -1000.0⟩ = some [71, 71] ∧ d.grid.yToPitch? (-1000.0) = some 113 := by
    decide +kernel
  obtain ⟨hbelow, hmid, habove, hrise, hrise'⟩ : Scalar.isFinite (132.0 : Float) = true ∧
      Scalar.isFinite (36.0 : Float) = true ∧ Scalar.isFinite (-1000.0 : Float) = true ∧
      (-1000.0 : Float) ≤ 36.0 ∧ (-1000.0 : Float) ≤ 132.0 := by
    decide +kernel
  obtain ⟨n, hhit⟩ := Option.isSome_iff_exists.1 hsome
  have hmove : octaveEditor.pointerDown s ⟨20.0, 156.0⟩ .primary =
      octaveEditor.beginMove s ⟨20.0, 156.0⟩ n := by
    rcases pointerDown_grabs rfl hhit (by decide) with hresize | hmove
    · have hone : (octaveEditor.beginResize s n).editor.gesture.ghostIds.length = 1 := rfl
      rw [show d.gesture = _ from congrArg (fun press => press.editor.gesture) hresize,
        hone] at hids
      exact absurd hids (by decide)
    · exact hmove
  obtain ⟨hrows, -, -, -, -, -, hup, -⟩ :=
    dragged_upwards hhit hmove (d := d) .start s hheight (by decide)
  exact ⟨hlow, hmiddle, htop, hpitch, hrows 36.0 (-1000.0) hmid habove hrise 113 hpitch,
    hup ⟨20.0, 132.0⟩ ⟨20.0, -1000.0⟩ _ _ hbelow habove hrise' hlow htop⟩

/-- Dragged further up than 32 bits count, both notes stop the program: the pitch of the pointer
is out of range. -/
theorem pair_stops :
    let s := pairSession 67
    let d := (octaveEditor.pointerDown s ⟨20.0, 156.0⟩ .primary).editor
    (-1000000000000.0 : Float) < -1000.0 ∧ d.pitchesAt? s ⟨20.0, -1000.0⟩ = some [71, 71] ∧
      d.grid.yToPitch? (-1000000000000.0) = none ∧
      (d.pointerMove? s ⟨20.0, -1000000000000.0⟩).isNone = true ∧
      d.pitchesAt? s ⟨20.0, -1000000000000.0⟩ = none := by
  decide +kernel

end GestureEditor

end NoteRoll
