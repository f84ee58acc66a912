import NoteRoll.Proofs.Binary64
import NoteRoll.Proofs.Previews

/-!
# Presses without a movement

A note that is pressed and let go is committed like one that was dragged: by its ghost,
at a distance of nothing. A ghost at a distance of nothing is its note again unless
the note is held back, and what holds it back is the window. It keeps the selected
notes among the visible pitches, also those that had been scrolled out of them when
the grabbed one was pressed.

So the release gives back the document exactly if all notes that are moved are in
view. That it is exactly these is a matter of single numbers, for adding a zero and
taking the larger of it and a zero leaves a binary number as it is just if it is
positive, or the one zero.

Nothing is asked of the identities. Where several notes have the same, the first one's
ghost takes the place of them all, and the document comes back if they are alike.
-/

namespace NoteRoll

/-! ## Ghosts at a distance of nothing -/

namespace Binary64

theorem larger_add_zero_iff {x : Float} : Scalar.larger (x + 0.0) 0.0 = x ↔ x = 0.0 ∨ 0.0 < x := by
  constructor
  · intro h
    rw [Scalar.larger] at h
    split at h
    · next hpos => exact .inr (h ▸ hpos)
    · rw [if_pos (by decide)] at h
      exact .inl h.symm
  · rintro (rfl | hpos)
    · rfl
    · rw [add_zero_of_pos hpos, Scalar.larger]
      exact if_pos hpos

end Binary64

/-- The note is among the visible pitches and does not begin before the beginning. -/
structure Note.InView (grid : Grid Float) (n : Note Float) : Prop where
  start : n.start = 0.0 ∨ 0.0 < n.start
  above : grid.lowPitch ≤ n.pitch
  below : n.pitch ≤ grid.highPitch

theorem Grid.clampPitch_eq_iff {α : Type} {grid : Grid α}
    (hordered : grid.lowPitch ≤ grid.highPitch) (hhigh : grid.highPitch ≤ 255) (pitch : Nat) :
    grid.clampPitch (Pitch.wrap (pitch + 0)) = pitch ↔
      grid.lowPitch ≤ pitch ∧ pitch ≤ grid.highPitch := by
  rw [clampPitch, Pitch.wrap]
  omega

theorem Gesture.moveNote_eq_iff {α : Type} [Scalar α] {grid : Grid α} {deltaBeat : α}
    {deltaPitch : Int} {n : Note α} :
    moveNote grid deltaBeat deltaPitch n = n ↔
      Scalar.larger (n.start + deltaBeat) 0 = n.start ∧
        grid.clampPitch (Pitch.wrap (n.pitch + deltaPitch)) = n.pitch := by
  obtain ⟨id, pitch, start, duration, velocity, track⟩ := n
  simp only [moveNote, Note.mk.injEq, and_true, true_and]
  exact and_comm

/-- What is moved by nothing stays where it is just if it is in view. -/
theorem Gesture.moveNote_zero_iff {grid : Grid Float} (hordered : grid.lowPitch ≤ grid.highPitch)
    (hhigh : grid.highPitch ≤ 255) (n : Note Float) :
    moveNote grid 0 0 n = n ↔ n.InView grid := by
  rw [moveNote_eq_iff, Grid.clampPitch_eq_iff hordered hhigh]
  refine Binary64.larger_add_zero_iff.and Iff.rfl |>.trans ?_
  exact ⟨fun ⟨hstart, habove, hbelow⟩ => ⟨hstart, habove, hbelow⟩,
    fun h => ⟨h.start, h.above, h.below⟩⟩

namespace GestureEditor

/-! ## When the ghosts change nothing -/

section Replacement

variable {α : Type} {notes ghosts : List (Note α)} {ids : List NoteId} {ghost : Note α → Note α}

/-- The ghosts are those of the notes named, each made of the first note of its
identity. -/
structure Stands (notes : List (Note α)) (ids : List NoteId) (ghost : Note α → Note α)
    (ghosts : List (Note α)) : Prop where
  named : ∀ id ∈ ids,
    (ghosts.find? fun g => g.id == id) = (notes.find? fun n => n.id == id).map ghost
  only : ∀ g ∈ ghosts, g.id ∈ ids

theorem replaceByGhosts_eq_self_iff : replaceByGhosts notes ghosts = notes ↔
    ∀ n ∈ notes, (ghosts.find? fun g => g.id == n.id).getD n = n := by
  conv_lhs => rhs; rw [← List.map_id notes]
  exact List.map_inj_left

/-- If nothing changes, a note that is named is the first one of its identity. -/
theorem Stands.first_of_eq (h : Stands notes ids ghost ghosts)
    (hback : replaceByGhosts notes ghosts = notes) {n : Note α} (hn : n ∈ notes)
    (hid : n.id ∈ ids) : ghost n = n ∧ (notes.find? fun m => m.id == n.id) = some n := by
  rw [replaceByGhosts_eq_self_iff] at hback
  obtain ⟨f, hf, hfid, hfind⟩ := exists_first hn
  -- Both the note and the first one come back, and both have the ghost of the first one.
  have hnote : ghost f = n := by
    have hself := hback n hn
    rwa [h.named _ hid, hfind] at hself
  have hfirst : ghost f = f := by
    have hself := hback f hf
    rwa [h.named _ (hfid ▸ hid), hfid, hfind] at hself
  obtain rfl : f = n := hfirst.symm.trans hnote
  exact ⟨hfirst, hfind⟩

/-- Putting the ghosts in changes nothing just if each note that is named is its own
ghost, and alike to all notes of its identity. -/
theorem Stands.replace_eq_iff (h : Stands notes ids ghost ghosts) :
    replaceByGhosts notes ghosts = notes ↔
      ∀ n ∈ notes, n.id ∈ ids → ghost n = n ∧ ∀ m ∈ notes, m.id = n.id → m = n := by
  constructor
  · intro hback n hn hid
    obtain ⟨hself, hfind⟩ := h.first_of_eq hback hn hid
    refine ⟨hself, fun m hm hmid => ?_⟩
    have hother := (h.first_of_eq hback hm (hmid ▸ hid)).2
    rw [hmid, hfind] at hother
    exact (Option.some.inj hother).symm
  · intro halike
    rw [replaceByGhosts_eq_self_iff]
    intro n hn
    by_cases hid : n.id ∈ ids
    · obtain ⟨hself, hsame⟩ := halike n hn hid
      obtain ⟨f, hf, hfid, hfind⟩ := exists_first hn
      obtain rfl : f = n := hsame f hf hfid
      rw [h.named _ hid, hfind]
      exact hself
    · have hnone : (ghosts.find? fun g => g.id == n.id) = none :=
        List.find?_eq_none.2 fun g hg hgid => hid (eq_of_beq hgid ▸ h.only g hg)
      rw [hnone]
      rfl

/-- What stands in the place of a note after a release: the ghost of the first note of
its identity, if that is named. -/
theorem Stands.of_mem (h : Stands notes ids ghost ghosts) {m : Note α}
    (hm : m ∈ replaceByGhosts notes ghosts) :
    (m.id ∉ ids → m ∈ notes) ∧
      (m.id ∈ ids → ∃ f, (notes.find? fun n => n.id == m.id) = some f ∧ m = ghost f) := by
  obtain ⟨n, hn, rfl⟩ := List.mem_map.1 hm
  cases hfind : ghosts.find? fun g => g.id == n.id with
  | none =>
      refine ⟨fun _ => hn, fun hnamed => ?_⟩
      obtain ⟨f, -, -, hfirst⟩ := exists_first hn
      have hghost := h.named n.id hnamed
      rw [hfind, hfirst] at hghost
      cases hghost
  | some g =>
      have hid : g.id = n.id := eq_of_beq (List.find?_some hfind :)
      have hnamed : n.id ∈ ids := hid ▸ h.only g (List.mem_of_find?_eq_some hfind)
      have hghost := h.named n.id hnamed
      rw [hfind] at hghost
      obtain ⟨f, hf, hg⟩ := Option.map_eq_some_iff.1 hghost.symm
      refine ⟨fun hother => absurd (hid ▸ hnamed) hother, fun _ => ⟨f, ?_, hg.symm⟩⟩
      show (notes.find? fun n => n.id == g.id) = some f
      rw [hid]
      exact hf

/-- A note of a selected identity is found among the captured ones as among all. -/
theorem find?_captured (notes : List (Note α)) {selection : Selection} {id : NoteId}
    (h : selection.contains id = true) :
    ((notes.filter fun n => selection.contains n.id).find? fun n => n.id == id) =
      notes.find? fun n => n.id == id := by
  rw [List.find?_filter]
  refine List.find?_congr fun m _ => ?_
  by_cases hid : m.id = id
  · simp [hid, h]
  · simp [hid]

variable [Scalar α]

theorem stands_moving (notes : List (Note α)) (selection : Selection) (grid : Grid α)
    (deltaBeat : α) (deltaPitch : Int) :
    let captured := notes.filter fun n => selection.contains n.id
    Stands notes (captured.map (·.id)) (Gesture.moveNote grid deltaBeat deltaPitch)
      (captured.map (Gesture.moveNote grid deltaBeat deltaPitch)) := by
  intro captured
  refine ⟨fun id hid => ?_, fun g hg => ?_⟩
  · obtain ⟨n, hn, rfl⟩ := List.mem_map.1 hid
    have hselected : selection.contains n.id = true := (List.mem_filter.1 hn).2
    rw [List.find?_map]
    exact congrArg _ (find?_captured notes hselected)
  · obtain ⟨n, hn, rfl⟩ := List.mem_map.1 hg
    exact List.mem_map.2 ⟨n, hn, rfl⟩

theorem stands_resizing (s : Session α) (id : NoteId) (originStart originDuration duration : α)
    (grid : Grid α) :
    Stands s.document.notes [id] (fun n => { n with duration })
      ((Gesture.resizing id originStart originDuration duration).ghosts grid s) := by
  rw [Gesture.ghosts]
  cases hnote : s.document.note? id with
  | none =>
      refine ⟨fun i hi => ?_, fun g hg => absurd hg List.not_mem_nil⟩
      obtain rfl : i = id := List.mem_singleton.1 hi
      show none = (s.document.note? i).map _
      rw [hnote]
      rfl
  | some n =>
      have hid := (Document.of_note? hnote).2
      refine ⟨fun i hi => ?_, fun g hg => ?_⟩
      · obtain rfl : i = id := List.mem_singleton.1 hi
        show List.find? _ [{ n with duration }] = (s.document.note? i).map _
        simp [hid, hnote]
      · rw [List.mem_singleton.1 hg]
        exact List.mem_singleton.2 hid

end Replacement

/-! ## A press and a release -/

/-- A press that grabs a note resizes it or moves what is captured. -/
theorem pointerDown_grabs [Scalar α] {e : GestureEditor α} {s : Session α} {p : Point α}
    {n : Note α} (hidle : e.isIdle = true) (hhit : e.hitTest? s p = some n)
    (htool : s.tool ≠ .erase) :
    e.pointerDown s p .primary = e.beginResize s n ∨
      e.pointerDown s p .primary = e.beginMove s p n := by
  have herase : (PointerButton.primary == .secondary || s.tool == .erase) = false := by
    cases htool' : s.tool with
    | erase => exact absurd htool' htool
    | draw | select => rfl
  rw [pointerDown, if_pos hidle, hhit]
  show e.pressNote s p .primary n = _ ∨ e.pressNote s p .primary n = _
  rw [pressNote, herase, if_neg Bool.false_ne_true]
  split
  · exact .inl rfl
  · exact .inr rfl

variable {e : GestureEditor Float} {s : Session Float} {p : Point Float} {n : Note Float}

/-- A press on a note with a release after it commits, as one step of the history, the
notes as they were, if the note was grabbed for resizing. If it was grabbed to be moved,
they come back as they were exactly if all that was captured is in view. Of notes that
share an identity it is asked in both cases that they are alike. -/
theorem tap_commits (hidle : e.isIdle = true) (hhit : e.hitTest? s p = some n)
    (htool : s.tool ≠ .erase) (hordered : e.grid.lowPitch ≤ e.grid.highPitch)
    (hhigh : e.grid.highPitch ≤ 255) :
    let press := e.pointerDown s p .primary
    let release := press.editor.pointerUp press.session
    let notes := release.2.2.document.notes
    let captured := s.document.notes.filter fun m => press.session.selection.contains m.id
    press.outcome = .started ∧ release.1 = .committed ∧
    release.2.2.history = s.history.commit notes ∧
    ((press.editor.gesture = .resizing n.id n.start n.duration n.duration ∧
        (notes = s.document.notes ↔ ∀ m ∈ s.document.notes, m.id = n.id → m = n)) ∨
      ∃ beatOffset pitchOffset,
        press.editor.gesture = .moving n.id captured beatOffset pitchOffset 0 0 ∧
        (notes = s.document.notes ↔
          ∀ m ∈ captured, m.InView e.grid ∧ ∀ k ∈ s.document.notes, k.id = m.id → k = m)) := by
  have hn := mem_of_hitTest? hhit
  rcases pointerDown_grabs hidle hhit htool with hresize | hmove
  · rw [hresize]
    refine ⟨rfl, rfl, rfl, .inl ⟨rfl, ?_⟩⟩
    refine (stands_resizing s n.id n.start n.duration n.duration e.grid).replace_eq_iff.trans ?_
    constructor
    · intro halike m hm hid
      have hsame := (halike n hn (List.mem_singleton.2 rfl)).2
      exact hsame m hm hid
    · intro hsame m hm hid
      obtain rfl : m = n := hsame m hm (List.mem_singleton.1 hid)
      exact ⟨rfl, hsame⟩
  · rw [hmove]
    refine ⟨rfl, rfl, rfl, .inr ⟨_, _, rfl, ?_⟩⟩
    refine (stands_moving s.document.notes _ e.grid 0 0).replace_eq_iff.trans ?_
    simp only [Gesture.moveNote_zero_iff hordered hhigh]
    constructor
    · intro hview m hm
      exact hview m (List.mem_filter.1 hm).1 (List.mem_map_of_mem hm)
    · intro hview m hm hid
      obtain ⟨k, hk, hkid⟩ := List.mem_map.1 hid
      have hselected := (List.mem_filter.1 hk).2
      rw [hkid] at hselected
      exact hview m (List.mem_filter.2 ⟨hm, hselected⟩)

/-- Two notes, of which the first stands at 65. -/
def pairDocument (second : Nat) : Document Float :=
  { Document.empty Track.defaults 120.0 with
    notes := [⟨1, 65, 0.0, 1.0, 90, "t_piano"⟩, ⟨2, second, 2.0, 1.0, 90, "t_piano"⟩]
    nextId := 3 }

/-- Both of them are selected. -/
def pairSession (second : Nat) : Session Float :=
  { Session.start (pairDocument second) with selection := .ofList [1, 2] }

/-- An editor that shows one octave. -/
def octaveEditor : GestureEditor Float := .ofGrid (.ofRange 40.0 24.0 60 71) 6.0

theorem pair_tap_in_view :
    let s := pairSession 67
    let press := octaveEditor.pointerDown s ⟨20.0, 156.0⟩ .primary
    let release := press.editor.pointerUp press.session
    octaveEditor.isIdle = true ∧ (octaveEditor.hitTest? s ⟨20.0, 156.0⟩).isSome = true ∧
    s.tool ≠ .erase ∧ press.editor.gesture.ghostIds = [1, 2] ∧
    release.2.2.document.notes = s.document.notes ∧
    release.2.2.history = s.history.commit s.document.notes := by
  have hsome : (octaveEditor.hitTest? (pairSession 67) ⟨20.0, 156.0⟩).isSome = true := by
    decide +kernel
  obtain ⟨n, hhit⟩ := Option.isSome_iff_exists.1 hsome
  have hdistinct : ((pairSession 67).document.notes.map (·.id)).Nodup := by decide
  have halike : ∀ m ∈ (pairSession 67).document.notes, ∀ k ∈ (pairSession 67).document.notes,
      k.id = m.id → k = m :=
    fun m hm k hk hid => List.inj_on_of_nodup_map hdistinct hk hm hid
  have hview : ∀ m ∈ (pairSession 67).document.notes, m.InView octaveEditor.grid := by
    refine List.forall_mem_cons.2 ⟨⟨.inl rfl, by decide, by decide⟩, ?_⟩
    refine List.forall_mem_singleton.2 ⟨.inr (by decide +kernel), by decide, by decide⟩
  have htap := tap_commits (e := octaveEditor) rfl hhit (by decide) (by decide) (by decide)
  dsimp only at htap ⊢
  obtain ⟨-, -, hhistory, ⟨-, hresized⟩ | ⟨_, _, -, hmoved⟩⟩ := htap
  · have hsame := hresized.2 (halike n (mem_of_hitTest? hhit))
    rw [hsame] at hhistory
    exact ⟨rfl, hsome, by decide, by decide +kernel, hsame, hhistory⟩
  · have hsame := hmoved.2 fun m hm =>
      ⟨hview m (List.mem_filter.1 hm).1, halike m (List.mem_filter.1 hm).1⟩
    rw [hsame] at hhistory
    exact ⟨rfl, hsome, by decide, by decide +kernel, hsame, hhistory⟩

/-- The second note was scrolled out of the window: it comes back at the lowest pitch
that is visible. -/
theorem pair_tap_out_of_view :
    let s := pairSession 40
    let press := octaveEditor.pointerDown s ⟨20.0, 156.0⟩ .primary
    let release := press.editor.pointerUp press.session
    octaveEditor.isIdle = true ∧ (octaveEditor.hitTest? s ⟨20.0, 156.0⟩).isSome = true ∧
    s.tool ≠ .erase ∧ press.outcome = .started ∧ press.editor.gesture.displaces = true ∧
    release.1 = .committed ∧ s.document.notes.map (·.pitch) = [65, 40] ∧
    release.2.2.document.notes.map (·.pitch) = [65, 60] ∧
    release.2.2.document.notes ≠ s.document.notes := by
  intro s press release
  have hbefore : s.document.notes.map (·.pitch) = [65, 40] := rfl
  -- All these begin with the same press, which is carried out once.
  obtain ⟨hsome, hstarted, hdisplaces, hcommitted, hafter⟩ :
      (octaveEditor.hitTest? s ⟨20.0, 156.0⟩).isSome = true ∧ press.outcome = .started ∧
      press.editor.gesture.displaces = true ∧ release.1 = .committed ∧
      release.2.2.document.notes.map (·.pitch) = [65, 60] := by
    decide +kernel
  refine ⟨rfl, hsome, by decide, hstarted, hdisplaces, hcommitted, hbefore, hafter, ?_⟩
  intro hsame
  rw [hsame, hbefore] at hafter
  exact absurd hafter (by decide)

end GestureEditor

end NoteRoll
