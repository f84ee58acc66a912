import NoteRoll.Proofs.DragPaths
import NoteRoll.Proofs.NoteRanges
import NoteRoll.Proofs.Snapping
import NoteRoll.Proofs.Taps

/-!
# Drags that land on the grid

With snapping on, three numbers are pulled to a multiple of the quantum: the onset of
a drawn note, the length that it is drawn out to, and the place where the end of a
resized note or the onset of the grabbed one is let go. Each is then held back by
something else, the beginning of the piece or the shortest length, and what survives
is different for each of them. Zero and the quantum are multiples themselves, so a
drawn note and a grabbed one stay on the grid when they are held back. A resized note
does not, because its end is measured from an onset that may lie anywhere: it ends on
the grid or it is one quantum long.

What the press leaves behind is `Begun`, and no move changes it; what a move makes of
it is `Landed`, and every move makes it anew. A grabbed note is always among those
that were captured, which is why no move of a gesture goes unanswered.

The theory is of the first note of an identity, for that is what a release looks up.
That the resized note is the one that was pressed is the only thing that takes
distinct notes.
-/

namespace NoteRoll

/-! ## Multiples of a quantum -/

namespace Snap

variable {quantum x y : Rat}

theorem Hits.larger (hx : Hits quantum x) (hy : Hits quantum y) :
    Hits quantum (Scalar.larger x y) := by
  rw [Scalar.larger_eq_max]
  rcases max_choice x y with h | h
  · rw [h]
    exact hx
  · rw [h]
    exact hy

end Snap

open Snap (Hits)

theorem Session.snapUnit_of_pos {s : Session Rat} (h : 0 < s.snap) : s.snapUnit = s.snap :=
  if_pos h

theorem Scalar.le_larger (x y : Rat) : y ≤ Scalar.larger x y := by
  rw [Scalar.larger_eq_max]
  exact le_max_right x y

/-! ## Gestures -/

namespace Gesture

/-- What a press leaves behind. A drawn note is on the grid in onset and length; a
grabbed note is one of those captured, and a resized one begins where it did. -/
def Begun (s : Session Rat) : Gesture Rat → Prop
  | .drawing _ note => 0 ≤ note.start ∧ 0 < note.duration ∧
    (0 < s.snap → Hits s.snap note.start ∧ Hits s.snap note.duration)
  | .moving grabbed captured _ _ _ _ => ∃ selection : Selection,
    captured = s.document.notes.filter (fun n => selection.contains n.id) ∧
      selection.contains grabbed = true ∧ s.document.contains grabbed = true
  | .resizing id originStart _ _ => ∃ n ∈ s.document.notes, n.id = id ∧ n.start = originStart
  | .idle | .marquee _ _ => True

/-- What a move makes of it. -/
def Landed (s : Session Rat) : Gesture Rat → Prop
  | .drawing _ note => s.snapUnit ≤ note.duration
  | .moving grabbed _ _ _ deltaBeat _ => 0 < s.snap →
    ∀ n, s.document.note? grabbed = some n → Hits s.snap (n.start + deltaBeat)
  | .resizing _ originStart _ duration => s.snapUnit ≤ duration ∧
    (0 < s.snap → duration = s.snap ∨ Hits s.snap (originStart + duration))
  | .idle | .marquee _ _ => True

variable {s : Session Rat} {g : Gesture Rat}

/-- Every move is answered, or there is no gesture; the answer has landed. -/
theorem Begun.move (h : g.Begun s) (grid : Grid Rat) (p : Point Rat) :
    ((g.moveTo? grid s p).getD g).Begun s ∧ ((g.moveTo? grid s p).getD g).Landed s := by
  cases g with
  | idle | marquee anchor cursor => exact ⟨trivial, trivial⟩
  | drawing anchorBeat note =>
      obtain ⟨hstart, -, hhits⟩ := h
      refine ⟨⟨hstart, ?_, fun hsnap => ⟨(hhits hsnap).1, ?_⟩⟩, Scalar.le_larger _ _⟩
      · exact s.snapUnit_pos.trans_le (Scalar.le_larger _ _)
      · refine (Snap.hits_snap hsnap _).larger ?_
        rw [Session.snapUnit_of_pos hsnap]
        exact Snap.hits_self _
  | moving grabbed captured beatOffset pitchOffset deltaBeat deltaPitch =>
      obtain ⟨selection, rfl, hselected, hthere⟩ := h
      obtain ⟨n, hn⟩ : ∃ n, s.document.note? grabbed = some n :=
        Option.isSome_iff_exists.1 (List.find?_isSome.2 (List.any_eq_true.1 hthere))
      have hfind := (GestureEditor.find?_captured s.document.notes hselected).trans hn
      simp only [moveTo?, hfind, Option.getD_some]
      refine ⟨⟨selection, rfl, hselected, hthere⟩, fun hsnap m hm => ?_⟩
      obtain rfl : n = m := Option.some.inj (hn.symm.trans hm)
      rw [add_sub_cancel]
      exact Snap.hits_snap hsnap _
  | resizing id originStart originDuration duration =>
      refine ⟨h, Scalar.le_larger _ _, fun hsnap => ?_⟩
      rw [Session.snapUnit_of_pos hsnap, Scalar.larger_eq_max]
      rcases max_choice (Snap.snap (grid.xToBeat p.x) s.snap - originStart) s.snap with hmax | hmax
      · rw [hmax, add_sub_cancel]
        exact .inr (Snap.hits_snap hsnap _)
      · exact .inl hmax

end Gesture

namespace GestureEditor

theorem begun_pointerDown {e : GestureEditor Rat} {s : Session Rat} {p : Point Rat}
    {button : PointerButton} (h : (e.pointerDown s p button).outcome = .started) :
    (e.pointerDown s p button).editor.gesture.Begun (e.pointerDown s p button).session := by
  rcases e.pointerDown_forms s p button with
    hignored | ⟨n, -, hdeleted⟩ | ⟨-, hdraw | ⟨n, hn, hresize⟩ | ⟨n, hn, hmove⟩ | hmarquee⟩
  · rw [hignored] at h
    cases h
  · rw [hdeleted] at h
    cases h
  · rw [hdraw]
    have hrange := Note.inRange_ofFields s.document.nextId
      (e.grid.clampPitch (e.grid.yToPitch p.y)) (Snap.snap (e.grid.xToBeat p.x) s.snap)
      s.drawDuration Note.defaultVelocity s.activeTrack
    refine ⟨hrange.start, hrange.duration, fun hsnap => ⟨?_, ?_⟩⟩
    · exact (Snap.hits_snap hsnap _).larger (Snap.hits_zero _)
    · have hpos : 0 < s.snap := hsnap
      have hlength : s.drawDuration = s.snap := if_pos hpos
      show Hits s.snap (if true && decide (0 < s.drawDuration) then s.drawDuration else _)
      rw [hlength, Bool.true_and, if_pos (decide_eq_true hpos)]
      exact Snap.hits_self s.snap
  · rw [hresize]
    exact ⟨n, hn, rfl, rfl⟩
  · rw [hmove]
    refine ⟨_, rfl, ?_, Document.contains_iff.2 (List.mem_map_of_mem hn)⟩
    show Selection.contains (if s.selection.contains n.id then s.selection else .only n.id) n.id =
      true
    split
    · next hselected => exact hselected
    · exact List.contains_iff_mem.2 (List.mem_singleton.2 rfl)
  · rw [hmarquee]
    trivial

end GestureEditor

/-- What a drag comes to, with a quantum, by the kind of its gesture. -/
def Gesture.LandsOn (quantum : Rat) (before after : List (Note Rat)) (moved : Prop) :
    Gesture Rat → Prop
  | .drawing _ note => after = before ++ [note] ∧
    Hits quantum note.start ∧ 0 ≤ note.start ∧ Hits quantum note.duration ∧ 0 < note.duration
  | .moving grabbed _ _ _ _ _ => moved → (∃ m ∈ after, m.id = grabbed) ∧
    ∀ m ∈ after, m.id = grabbed → Hits quantum m.start ∧ 0 ≤ m.start
  | .resizing id originStart _ _ => moved → (∃ m ∈ after, m.id = id) ∧
    ((before.map (·.id)).Nodup → ∀ m ∈ after, m.id = id → m.start = originStart) ∧
    ∀ m ∈ after, m.id = id → quantum ≤ m.duration ∧
      (m.start = originStart → m.duration = quantum ∨ Hits quantum m.stop)
  | .idle | .marquee _ _ => True

/-- What a drag makes of lengths, by the kind of its gesture: one that it gives is not below
the least one, and notes that are only moved keep theirs. -/
def Gesture.Lasts (least : Rat) (before after : List (Note Rat)) : Gesture Rat → Prop
  | .drawing _ note => after = before ++ [note] ∧ least ≤ note.duration
  | .moving .. => after.map (·.id) = before.map (·.id) ∧
    ∀ m ∈ after, ∃ n ∈ before, n.id = m.id ∧ n.duration = m.duration
  | .resizing id _ _ _ => (∃ m ∈ after, m.id = id) ∧
    (∀ m ∈ after, m.id = id → least ≤ m.duration) ∧ ∀ m ∈ after, m.id ≠ id → m ∈ before
  | .idle | .marquee _ _ => after = before

namespace GestureEditor

variable {e : GestureEditor Rat} {s : Session Rat}

theorem exists_mem_replaceByGhosts {notes : List (Note Rat)} (ghosts : List (Note Rat))
    {n : Note Rat} (hn : n ∈ notes) : ∃ m ∈ replaceByGhosts notes ghosts, m.id = n.id :=
  List.mem_map.1 (ids_replaceByGhosts notes ghosts ▸ List.mem_map_of_mem hn)

/-- A release commits what has landed. -/
theorem pointerUp_landsOn (hsnap : 0 < s.snap) (hbegun : e.gesture.Begun s) {moved : Prop}
    (hlanded : moved → e.gesture.Landed s) :
    e.gesture.LandsOn s.snap s.document.notes (e.pointerUp s).2.2.document.notes moved := by
  obtain ⟨gesture, grid, edgeMargin⟩ := e
  cases gesture with
  | idle | marquee anchor cursor => trivial
  | drawing anchorBeat note =>
      obtain ⟨hstart, hlasts, hhits⟩ := hbegun
      exact ⟨rfl, (hhits hsnap).1, hstart, (hhits hsnap).2, hlasts⟩
  | moving grabbed captured beatOffset pitchOffset deltaBeat deltaPitch =>
      intro hmoved
      have hlands := hlanded hmoved hsnap
      obtain ⟨selection, rfl, hselected, hthere⟩ := hbegun
      obtain ⟨n, hn, hid⟩ := List.mem_map.1 (Document.contains_iff.1 hthere)
      have hcaptured : grabbed ∈
          (s.document.notes.filter fun n => selection.contains n.id).map (·.id) :=
        List.mem_map.2 ⟨n, List.mem_filter.2 ⟨hn, by rw [hid]; exact hselected⟩, hid⟩
      have hstands := stands_moving s.document.notes selection grid deltaBeat deltaPitch
      refine ⟨hid ▸ exists_mem_replaceByGhosts _ hn, fun m hm hmid => ?_⟩
      subst hmid
      obtain ⟨f, hfirst, hghost⟩ := (hstands.of_mem hm).2 hcaptured
      rw [hghost]
      exact ⟨(hlands f hfirst).larger (Snap.hits_zero _), Scalar.le_larger _ _⟩
  | resizing id originStart originDuration duration =>
      intro hmoved
      obtain ⟨hunit, hlands⟩ := hlanded hmoved
      obtain ⟨n, hn, rfl, rfl⟩ := hbegun
      have hstands := stands_resizing s n.id n.start originDuration duration grid
      refine ⟨exists_mem_replaceByGhosts _ hn, fun hdistinct m hm hmid => ?_,
        fun m hm hmid => ?_⟩
      · obtain ⟨f, hfirst, hghost⟩ := (hstands.of_mem hm).2 (List.mem_singleton.2 hmid)
        have hf : f.id = n.id := (eq_of_beq (List.find?_some hfirst :)).trans hmid
        have hsame : f = n :=
          List.inj_on_of_nodup_map hdistinct (List.mem_of_find?_eq_some hfirst) hn hf
        rw [hghost, hsame]
      · obtain ⟨f, -, hghost⟩ := (hstands.of_mem hm).2 (List.mem_singleton.2 hmid)
        rw [hghost]
        refine ⟨Session.snapUnit_of_pos hsnap ▸ hunit, fun hstart => ?_⟩
        have hstop : Note.stop { f with duration } = n.start + duration :=
          congrArg (· + duration) hstart
        rw [hstop]
        exact hlands hsnap

/-- A release commits no length that a move would not have given. -/
theorem pointerUp_lasts (hbegun : e.gesture.Begun s) (hlanded : e.gesture.Landed s) :
    e.gesture.Lasts s.snapUnit s.document.notes (e.pointerUp s).2.2.document.notes := by
  obtain ⟨gesture, grid, edgeMargin⟩ := e
  cases gesture with
  | idle | marquee anchor cursor => rfl
  | drawing anchorBeat note => exact ⟨rfl, hlanded⟩
  | moving grabbed captured beatOffset pitchOffset deltaBeat deltaPitch =>
      obtain ⟨selection, rfl, -, -⟩ := hbegun
      have hstands := stands_moving s.document.notes selection grid deltaBeat deltaPitch
      refine ⟨ids_replaceByGhosts _ _, fun m hm => ?_⟩
      obtain ⟨hother, hnamed⟩ := hstands.of_mem hm
      by_cases hid : m.id ∈
        (s.document.notes.filter fun n => selection.contains n.id).map (·.id)
      · obtain ⟨f, hfirst, hghost⟩ := hnamed hid
        exact ⟨f, List.mem_of_find?_eq_some hfirst, eq_of_beq (List.find?_some hfirst :),
          (congrArg Note.duration hghost).symm⟩
      · exact ⟨m, hother hid, rfl, rfl⟩
  | resizing id originStart originDuration duration =>
      obtain ⟨n, hn, rfl, -⟩ := hbegun
      have hstands := stands_resizing s n.id originStart originDuration duration grid
      refine ⟨exists_mem_replaceByGhosts _ hn, fun m hm hmid => ?_, fun m hm hmid => ?_⟩
      · obtain ⟨f, -, hghost⟩ := (hstands.of_mem hm).2 (List.mem_singleton.2 hmid)
        rw [hghost]
        exact hlanded.1
      · exact (hstands.of_mem hm).1 fun hnamed => hmid (List.mem_singleton.1 hnamed)

end GestureEditor

namespace Studio

section Drags

variable {σ : Type} [NumberText Rat] [SoundOutput σ Rat]

/-- One event of a drag without a change of the quantum: the session stays, what the
press left behind stays, and a move makes it land. -/
theorem begun_next {s : Studio σ Rat} (hbegun : s.gestures.gesture.Begun s.session)
    {e : Event Rat} (hdrags : e.drags = true) (hheld : ∀ q, e ≠ .setSnap q) :
    (s.next e).session = s.session ∧ (s.next e).gestures.gesture.Begun s.session ∧
      ((∃ p, e = .gridMove p) ∨ s.gestures.gesture.Landed s.session →
        (s.next e).gestures.gesture.Landed s.session) := by
  cases e with
  | gridMove p =>
      have hnext : (s.next (.gridMove p)).gestures.gesture = _ :=
        congrArg GestureEditor.gesture (s.gestures.pointerMove_editor s.session p)
      obtain ⟨hstays, hlands⟩ := hbegun.move s.gestures.grid p
      rw [hnext]
      exact ⟨rfl, hstays, fun _ => hlands⟩
  | setSnap quantum => exact absurd rfl (hheld quantum)
  | scrollPitch semitones | centerOn center rows =>
      refine ⟨rfl, hbegun, fun hlanded => ?_⟩
      rcases hlanded with ⟨p, hmove⟩ | hlanded
      · cases hmove
      · exact hlanded
  | _ => cases hdrags

theorem begun_run {s : Studio σ Rat} (hbegun : s.gestures.gesture.Begun s.session)
    {moves : List (Event Rat)} (hdrags : ∀ e ∈ moves, e.drags = true)
    (hheld : ∀ q, .setSnap q ∉ moves) :
    (s.run moves).session = s.session ∧ (s.run moves).gestures.gesture.Begun s.session ∧
      ((∃ p, .gridMove p ∈ moves) ∨ s.gestures.gesture.Landed s.session →
        (s.run moves).gestures.gesture.Landed s.session) := by
  induction moves generalizing s with
  | nil =>
      refine ⟨rfl, hbegun, fun hlanded => ?_⟩
      rcases hlanded with ⟨p, hmem⟩ | hlanded
      · cases hmem
      · exact hlanded
  | cons e es ih =>
      obtain ⟨hsession, hstays, hlands⟩ := begun_next hbegun (hdrags e List.mem_cons_self)
        fun q he => hheld q (he ▸ List.mem_cons_self)
      have hrest := ih (s := s.next e) (hsession ▸ hstays)
        (fun e he => hdrags e (List.mem_cons_of_mem _ he))
        fun q hq => hheld q (List.mem_cons_of_mem _ hq)
      rw [hsession] at hrest
      refine ⟨hrest.1, hrest.2.1, fun hlanded => hrest.2.2 ?_⟩
      rcases hlanded with ⟨p, hmem⟩ | hlanded
      · rcases List.mem_cons.1 hmem with rfl | hmem
        · exact .inr (hlands (.inl ⟨p, rfl⟩))
        · exact .inl ⟨p, hmem⟩
      · exact .inr (hlands (.inr hlanded))

/-- Whatever a drag does to a session in which the quantum stays the same, on a grid
that may scroll meanwhile. With a quantum, a drawn note begins on the grid, not before
the beginning, and lasts some quanta, whether the pointer moved or not. If it moved, a
grabbed note begins on the grid, not before the beginning, and a resized one lasts a
quantum at least, and if it lasts longer it ends on the grid. Without a quantum, a
drag in which the pointer moved gives a note that is drawn or resized an eighth of a
beat at least, and leaves notes that are moved as long as they were. -/
theorem drag_lands {s : Studio σ Rat} {p : Point Rat} {button : PointerButton}
    (hstarted : s.reply (.gridDown p button) = .gesture .started) {moves : List (Event Rat)}
    (hdrags : ∀ e ∈ moves, e.drags = true) (hheld : ∀ q, .setSnap q ∉ moves) :
    let t := s.run (.gridDown p button :: moves)
    let before := s.session.document.notes
    let after := (t.next .gridUp).session.document.notes
    (0 < s.session.snap →
      t.gestures.gesture.LandsOn s.session.snap before after (∃ p, .gridMove p ∈ moves)) ∧
    (s.session.snap = 0 → (∃ p, .gridMove p ∈ moves) →
      t.gestures.gesture.Lasts (1 / 8) before after) := by
  intro t before after
  have hpress : (s.gestures.pointerDown s.session p button).outcome = .started := by
    injection hstarted
  obtain ⟨selection, nextId, hsession, -⟩ := (GestureEditor.begins_of_started hpress).session
  obtain ⟨hsame, hbegun, hlanded⟩ :=
    begun_run (s := s.next (.gridDown p button)) (GestureEditor.begun_pointerDown hpress) hdrags
      hheld
  have hbefore : t.session = { s.session with
      selection, document := { s.session.document with nextId } } := hsame.trans hsession
  have hsnap : t.session.snap = s.session.snap := by rw [hbefore]
  have hnotes : t.session.document.notes = before := by rw [hbefore]
  rw [← hsame] at hbegun hlanded
  rw [← hsnap, ← hnotes]
  refine ⟨fun hpos => ?_, fun hzero hmoved => ?_⟩
  · exact GestureEditor.pointerUp_landsOn hpos hbegun fun hmoved => hlanded (.inl hmoved)
  · have hunit : t.session.snapUnit = 1 / 8 := by
      rw [Session.snapUnit, hzero, if_neg (lt_irrefl _)]
      decide +kernel
    rw [← hunit]
    exact GestureEditor.pointerUp_lasts hbegun (hlanded (.inl hmoved))

end Drags

/-- A note that begins and ends off the grid. -/
def offGrid : Studio (Recorder Rat) Rat where
  session := Session.start { Document.empty Track.defaults 120 with
    notes := [⟨1, 60, 1 / 3, 2 / 5, 90, "t_piano"⟩], nextId := 2 }
  gestures := .ofGrid .standard 6
  velocities := .ofLane .standard
  transport := .ofTiming .standard
  output := .start true 0

/-- Its end is dragged before the beginning, and back past where it was: it comes to
lie on a beat and a half. Without a quantum it is left before the beginning, and the note
becomes as short as a note can be drawn. -/
theorem offGrid_lands :
    let moves : List (Event Rat) := [.gridMove ⟨-100, 0⟩, .scrollPitch 3, .gridMove ⟨61, 300⟩]
    let t := offGrid.run (.gridDown ⟨29, 870⟩ .primary :: moves)
    let after := (t.next .gridUp).session.document.notes
    let free := offGrid.next (.setSnap 0)
    let u := free.run (.gridDown ⟨29, 870⟩ .primary :: [.gridMove ⟨-100, 0⟩])
    offGrid.reply (.gridDown ⟨29, 870⟩ .primary) = .gesture .started ∧
    (∀ e ∈ moves, e.drags = true) ∧ (∀ q, .setSnap q ∉ moves) ∧
    (offGrid.session.snap = 1 / 4 ∧ t.gestures.gesture.ghostIds = [1] ∧
      t.gestures.gesture.displaces = true) ∧
    (∃ p, .gridMove p ∈ moves) ∧
    t.gestures.gesture.LandsOn (1 / 4) offGrid.session.document.notes after
      (∃ p, .gridMove p ∈ moves) ∧
    after.map (fun n => (n.id, n.start, n.duration, n.stop)) = [(1, 1 / 3, 7 / 6, 3 / 2)] ∧
    u.gestures.gesture.Lasts (1 / 8) free.session.document.notes
      (u.next .gridUp).session.document.notes ∧
    (u.next .gridUp).session.document.notes.map (·.duration) = [1 / 8] := by
  intro moves t after free u
  have hstarted : offGrid.reply (.gridDown ⟨29, 870⟩ .primary) = .gesture .started :=
    congrArg Reply.gesture (by decide +kernel)
  have hdrags : ∀ e ∈ moves, e.drags = true := by decide +kernel
  have hheld : ∀ q, .setSnap q ∉ moves := fun q hq => by simp [moves] at hq
  have hsnap : offGrid.session.snap = 1 / 4 := by decide +kernel
  have hlands := (drag_lands hstarted hdrags hheld).1 (by decide +kernel)
  rw [hsnap] at hlands
  have hstarted' : free.reply (.gridDown ⟨29, 870⟩ .primary) = .gesture .started :=
    congrArg Reply.gesture (by decide +kernel)
  have hdrags' : ∀ e ∈ ([.gridMove ⟨-100, 0⟩] : List (Event Rat)), e.drags = true := by decide
  have hlasts := (drag_lands hstarted' hdrags' fun q hq => by simp at hq).2 rfl
    ⟨_, List.mem_singleton_self _⟩
  exact ⟨hstarted, hdrags, hheld, ⟨hsnap, by decide +kernel, by decide +kernel⟩,
    ⟨⟨-100, 0⟩, List.mem_cons_self⟩, hlands, by decide +kernel, hlasts, by decide +kernel⟩

/-- A note of one beat, and one that is shorter than what can be drawn. Both are selected, and there
is no quantum. -/
def uneven : Studio (Recorder Rat) Rat :=
  run { offGrid with
    session := Session.start { Document.empty Track.defaults 120 with
      notes := [⟨1, 65, 0, 1, 90, "t_piano"⟩, ⟨2, 67, 2, 1 / 20, 90, "t_piano"⟩], nextId := 3 }
    gestures := .ofGrid ⟨40, 24, 60, 71⟩ 6 } [.setSnap 0, .select [1, 2]]

/-- The long one is grabbed and dragged by a beat. The short one goes with it and stays as short. -/
theorem uneven_moved :
    let t := uneven.run [.gridDown ⟨20, 156⟩ .primary, .gridMove ⟨60, 156⟩]
    uneven.session.snap = 0 ∧
    uneven.reply (.gridDown ⟨20, 156⟩ .primary) = .gesture .started ∧
    t.reply .gridUp = .gesture .committed ∧
    ((t.next .gridUp).session.document.notes.map fun n => (n.id, n.start, n.duration)) =
      [(1, 1, 1), (2, 3, 1 / 20)] ∧
    (1 / 20 : Rat) < 1 / 8 :=
  ⟨by decide +kernel, congrArg Reply.gesture (by decide +kernel),
    congrArg Reply.gesture (by decide +kernel), by decide +kernel, by decide +kernel⟩

end Studio

end NoteRoll
