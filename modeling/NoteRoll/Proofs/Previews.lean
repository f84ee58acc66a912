import Mathlib.Data.List.Forall2
import Mathlib.Data.List.Nodup
import NoteRoll.Proofs.Identities

/-!
# What is previewed is committed

A release finds the ghost of a note by its identity, one search for each note of the
document. That this puts every ghost where it belongs, and no other note anywhere,
rests on two things: the ghosts have the identities that the gesture names, and no two
of them have the same.

The first is seen from the document as it is at the release. The second is not, for
the notes that are moved were captured when the pointer went down. It is an invariant
of the editor, kept by everything the pointer does as long as the notes are distinct
whenever it goes down.
-/

namespace NoteRoll

variable {α : Type}

theorem Document.of_note? {d : Document α} {id : NoteId} {n : Note α}
    (h : d.note? id = some n) : n ∈ d.notes ∧ n.id = id :=
  ⟨List.mem_of_find?_eq_some h, eq_of_beq (List.find?_some h :)⟩

/-! ## Nothing is held back -/

theorem Scalar.larger_zero_of_nonneg [Scalar α] {x : α} (h : 0 < x ∨ x = 0) :
    larger x 0 = x := by
  rcases h with h | rfl
  · rw [larger, if_pos h]
  · rw [larger]
    split
    · rfl
    · exact ite_self _

theorem Grid.clampPitch_of_mem {grid : Grid α} {pitch : Int} (hlow : (grid.lowPitch : Int) ≤ pitch)
    (hhigh : pitch ≤ (grid.highPitch : Int)) : (grid.clampPitch pitch : Int) = pitch := by
  rw [clampPitch]
  omega

namespace Gesture

variable [Scalar α]

/-- A moved note is where the two distances put it: neither its onset nor its pitch
was held back. -/
structure Unclamped (grid : Grid α) (deltaBeat : α) (deltaPitch : Int) (n : Note α) : Prop where
  start : 0 < n.start + deltaBeat ∨ n.start + deltaBeat = 0
  above : (grid.lowPitch : Int) ≤ n.pitch + deltaPitch
  below : n.pitch + deltaPitch ≤ (grid.highPitch : Int)

theorem Unclamped.moveNote {grid : Grid α} {deltaBeat : α} {deltaPitch : Int} {n : Note α}
    (h : Unclamped grid deltaBeat deltaPitch n) (hhigh : grid.highPitch ≤ 255) :
    (Gesture.moveNote grid deltaBeat deltaPitch n).start = n.start + deltaBeat ∧
      ((Gesture.moveNote grid deltaBeat deltaPitch n).pitch : Int) = n.pitch + deltaPitch := by
  have habove := h.above
  have hbelow := h.below
  have hwrap : Pitch.wrap (n.pitch + deltaPitch) = n.pitch + deltaPitch :=
    Pitch.wrap_of_inRange ⟨by omega, by omega⟩
  refine ⟨Scalar.larger_zero_of_nonneg h.start, ?_⟩
  show (grid.clampPitch (Pitch.wrap (n.pitch + deltaPitch)) : Int) = _
  rw [hwrap]
  exact Grid.clampPitch_of_mem habove hbelow

/-! ## What a gesture names -/

/-- The gestures that put ghosts in the place of notes. -/
def displaces : Gesture α → Bool
  | .moving .. | .resizing .. => true
  | .idle | .drawing .. | .marquee .. => false

/-- The gesture names no note twice, and moves notes by a distance of 32 bits. -/
def Tidy : Gesture α → Prop
  | .moving _ captured _ _ _ deltaPitch =>
    (captured.map (·.id)).Nodup ∧ -2147483648 ≤ deltaPitch ∧ deltaPitch ≤ 2147483647
  | _ => True

theorem Tidy.moveTo? {g g' : Gesture α} (h : g.Tidy) {grid : Grid α} {s : Session α} {p : Point α}
    (hmove : g.moveTo? grid s p = some g') : g'.Tidy := by
  rcases moveTo?_forms hmove with ⟨_, _, _, rfl, rfl⟩ | ⟨_, _, _, _, _, _, _, distance, rfl, rfl⟩ |
    ⟨_, _, _, _, _, rfl, rfl⟩ | ⟨_, _, rfl, rfl⟩
  · trivial
  · refine ⟨h.1, ?_⟩
    simp only [Pitch.wrap]
    omega
  · trivial
  · trivial

end Gesture

namespace GestureEditor

variable [Scalar α]

/-- The editors that come of handling the pointer, over sessions whose notes are
distinct when it goes down, and with whatever grid at any time. -/
inductive Handled : GestureEditor α → Prop
  | fresh (grid : Grid α) (edgeMargin : α) : Handled (.ofGrid grid edgeMargin)
  | pointerDown {e : GestureEditor α} {s : Session α} (h : e.Handled)
      (hdistinct : (s.document.notes.map (·.id)).Nodup) (p : Point α) (button : PointerButton) :
      Handled (e.pointerDown s p button).editor
  | pointerMove {e : GestureEditor α} (h : e.Handled) (s : Session α) (p : Point α) :
      Handled (e.pointerMove s p).2
  | pointerUp {e : GestureEditor α} (h : e.Handled) (s : Session α) :
      Handled (e.pointerUp s).2.1
  | cancel {e : GestureEditor α} (h : e.Handled) : Handled e.cancel
  | showing {e : GestureEditor α} (h : e.Handled) (grid : Grid α) : Handled { e with grid }

theorem tidy_pointerDown {e : GestureEditor α} {s : Session α} (h : e.gesture.Tidy)
    (hdistinct : (s.document.notes.map (·.id)).Nodup) (p : Point α) (button : PointerButton) :
    (e.pointerDown s p button).editor.gesture.Tidy := by
  rcases e.pointerDown_forms s p button with
    hignored | ⟨n, -, hdeleted⟩ | ⟨-, hdraw | ⟨n, -, hresize⟩ | ⟨n, -, hmove⟩ | hmarquee⟩
  · rw [hignored]
    exact h
  · rw [hdeleted]
    exact h
  · rw [hdraw]
    trivial
  · rw [hresize]
    trivial
  · rw [hmove]
    refine ⟨hdistinct.sublist (List.Sublist.map _ List.filter_sublist), ?_⟩
    omega
  · rw [hmarquee]
    trivial

/-- However the pointer is handled, the gesture names no note twice. -/
theorem Handled.tidy {e : GestureEditor α} (h : e.Handled) : e.gesture.Tidy := by
  induction h with
  | fresh grid edgeMargin => trivial
  | pointerDown h hdistinct p button ih => exact tidy_pointerDown ih hdistinct p button
  | pointerMove h s p ih =>
      rw [GestureEditor.pointerMove]
      split
      · exact ih
      · next g hmove => exact ih.moveTo? hmove
  | pointerUp h s ih =>
      rw [pointerUp_editor]
      trivial
  | cancel h ih => trivial
  | showing h grid ih => exact ih

/-! ## Ghosts in the place of notes -/

/-- A note and what is in its place after a release: a ghost of its identity where the
gesture names it, and otherwise the note itself. -/
structure GaveWay (ids : List NoteId) (ghosts : List (Note α)) (n m : Note α) : Prop where
  named : n.id ∈ ids → m ∈ ghosts ∧ m.id = n.id
  other : n.id ∉ ids → m = n

omit [Scalar α] in
theorem gaveWay_find? {ids : List NoteId} {ghosts : List (Note α)} {n : Note α}
    (hids : n.id ∈ ids ↔ n.id ∈ ghosts.map (·.id)) :
    GaveWay ids ghosts n ((ghosts.find? fun g => g.id == n.id).getD n) := by
  cases hfind : ghosts.find? fun g => g.id == n.id with
  | none =>
      refine ⟨fun hnamed => ?_, fun _ => rfl⟩
      obtain ⟨g, hg, hgid⟩ := List.mem_map.1 (hids.1 hnamed)
      exact absurd (beq_iff_eq.2 hgid) (List.find?_eq_none.1 hfind g hg)
  | some g =>
      have hg : g ∈ ghosts := List.mem_of_find?_eq_some hfind
      have hgid : g.id = n.id := eq_of_beq (List.find?_some hfind :)
      refine ⟨fun _ => ⟨hg, hgid⟩, fun hother => absurd (hids.2 ?_) hother⟩
      exact List.mem_map.2 ⟨g, hg, hgid⟩

/-- Of the notes of the document, the ghosts stand in for those that the gesture
names. -/
theorem mem_ghostIds_iff {e : GestureEditor α} {s : Session α} {n : Note α}
    (hn : n ∈ s.document.notes) :
    n.id ∈ e.gesture.ghostIds ↔ n.id ∈ (e.ghosts s).map (·.id) := by
  obtain ⟨gesture, grid, edgeMargin⟩ := e
  cases gesture with
  | idle | drawing anchorBeat note | marquee anchor cursor => rfl
  | moving grabbed captured beatOffset pitchOffset deltaBeat deltaPitch =>
      show n.id ∈ captured.map (·.id) ↔
        n.id ∈ (captured.map (Gesture.moveNote grid deltaBeat deltaPitch)).map (·.id)
      rw [List.map_map]
      rfl
  | resizing id originStart originDuration duration =>
      simp only [ghosts, Gesture.ghosts, Gesture.ghostIds, List.mem_singleton]
      cases hnote : s.document.note? id with
      | none =>
          -- The note is gone since the press: no ghost, and no note that would need one.
          have hne : n.id ≠ id := fun heq =>
            List.find?_eq_none.1 hnote n hn (beq_iff_eq.2 heq)
          simp [hne]
      | some m =>
          simp [(Document.of_note? hnote).2]

theorem forall₂_replaceByGhosts (e : GestureEditor α) (s : Session α) :
    List.Forall₂ (GaveWay e.gesture.ghostIds (e.ghosts s)) s.document.notes
      (replaceByGhosts s.document.notes (e.ghosts s)) := by
  rw [replaceByGhosts, List.forall₂_map_right_iff, List.forall₂_same]
  intro n hn
  exact gaveWay_find? (mem_ghostIds_iff hn)

theorem ghosts_nodup {e : GestureEditor α} (he : e.Handled) (s : Session α) :
    ((e.ghosts s).map (·.id)).Nodup := by
  have htidy := he.tidy
  obtain ⟨gesture, grid, edgeMargin⟩ := e
  cases gesture with
  | idle | marquee anchor cursor => exact List.nodup_nil
  | drawing anchorBeat note => exact List.nodup_singleton _
  | moving grabbed captured beatOffset pitchOffset deltaBeat deltaPitch =>
      show ((captured.map (Gesture.moveNote grid deltaBeat deltaPitch)).map (·.id)).Nodup
      rw [List.map_map]
      exact htidy.1
  | resizing id originStart originDuration duration =>
      simp only [ghosts, Gesture.ghosts]
      split
      · exact List.nodup_singleton _
      · exact List.nodup_nil

/-- With distinct notes the ghost of a resized note is that note at another length. -/
theorem ghosts_resizing {e : GestureEditor α} {s : Session α} {id : NoteId}
    {originStart originDuration duration : α}
    (h : e.gesture = .resizing id originStart originDuration duration)
    (hdistinct : (s.document.notes.map (·.id)).Nodup) {n : Note α} (hn : n ∈ s.document.notes)
    (hid : n.id = id) : e.ghosts s = [{ n with duration }] := by
  rw [ghosts, h, Gesture.ghosts]
  cases hnote : s.document.note? id with
  | none => exact absurd (beq_iff_eq.2 hid) (List.find?_eq_none.1 hnote n hn)
  | some m =>
      obtain ⟨hm, hmid⟩ := Document.of_note? hnote
      have hsame : m = n := List.inj_on_of_nodup_map hdistinct hm hn (hmid.trans hid.symm)
      rw [hsame]

/-- Notes that are not held back stay as far from one another as they were. -/
theorem moved_offsets {grid : Grid α} (hhigh : grid.highPitch ≤ 255) {deltaBeat : α}
    {deltaPitch : Int} {m n : Note α} (hm : Gesture.Unclamped grid deltaBeat deltaPitch m)
    (hn : Gesture.Unclamped grid deltaBeat deltaPitch n) :
    let moved := Gesture.moveNote grid deltaBeat deltaPitch
    ((moved m).pitch : Int) - (moved n).pitch = m.pitch - n.pitch ∧
      ((∀ a b c : α, a + c - (b + c) = a - b) →
        (moved m).start - (moved n).start = m.start - n.start) := by
  obtain ⟨hmstart, hmpitch⟩ := hm.moveNote hhigh
  obtain ⟨hnstart, hnpitch⟩ := hn.moveNote hhigh
  intro moved
  refine ⟨?_, fun hlaw => ?_⟩
  · rw [hmpitch, hnpitch]
    omega
  · rw [hmstart, hnstart]
    exact hlaw ..

/-- A release commits what is previewed, and nothing else. A note that was drawn is
put behind the others. In a move or a resize each note that the gesture names gives
way, in its place, to the one ghost of its identity. The ghost of a resized note is
the note at another length. Moved notes have one distance in beats and one in pitch in
common, of which each goes as far as the beginning and the visible pitches allow; those
that go all the way stay as far from one another as they were, in beats wherever
adding the same on both sides does not change a difference. -/
theorem pointerUp_commits_ghosts {e : GestureEditor α} (he : e.Handled)
    (hhigh : e.grid.highPitch ≤ 255) {s : Session α}
    (hdistinct : (s.document.notes.map (·.id)).Nodup) :
    let ghosts := e.ghosts s
    let ids := e.gesture.ghostIds
    let notes := (e.pointerUp s).2.2.document.notes
    (ghosts.map (·.id)).Nodup ∧
    (∀ anchorBeat note, e.gesture = .drawing anchorBeat note →
      ghosts = [note] ∧ ids = [note.id] ∧ notes = s.document.notes ++ ghosts ∧
      e.pointerUp s =
        (.committed, e.cancel, { s.commitNotes notes with selection := .only note.id })) ∧
    (e.gesture.displaces = true →
      List.Forall₂ (GaveWay ids ghosts) s.document.notes notes ∧
      e.pointerUp s = (.committed, e.cancel, s.commitNotes notes)) ∧
    (∀ id originStart originDuration duration,
      e.gesture = .resizing id originStart originDuration duration →
        ids = [id] ∧ ∀ n ∈ s.document.notes, n.id = id → ghosts = [{ n with duration }]) ∧
    ∀ grabbed captured beatOffset pitchOffset deltaBeat deltaPitch,
      e.gesture = .moving grabbed captured beatOffset pitchOffset deltaBeat deltaPitch →
        let moved := Gesture.moveNote e.grid deltaBeat deltaPitch
        ids = captured.map (·.id) ∧ ghosts = captured.map moved ∧
        (∀ n ∈ captured,
          (moved n = { n with
            start := Scalar.larger (n.start + deltaBeat) 0
            pitch := e.grid.clampPitch (Pitch.wrap (n.pitch + deltaPitch)) }) ∧
          (n.pitch + deltaPitch ≤ 2147483647 →
            (moved n).pitch = e.grid.clampPitch (n.pitch + deltaPitch))) ∧
        ∀ m ∈ captured, ∀ n ∈ captured,
          Gesture.Unclamped e.grid deltaBeat deltaPitch m →
          Gesture.Unclamped e.grid deltaBeat deltaPitch n →
            ((moved m).pitch : Int) - (moved n).pitch = m.pitch - n.pitch ∧
            ((∀ a b c : α, a + c - (b + c) = a - b) →
              (moved m).start - (moved n).start = m.start - n.start) := by
  intro ghosts ids notes
  have htidy := he.tidy
  refine ⟨ghosts_nodup he s, fun anchorBeat note h => ?_, fun h => ?_,
    fun id originStart originDuration duration h => ?_,
    fun grabbed captured beatOffset pitchOffset deltaBeat deltaPitch h => ?_⟩
  · obtain ⟨gesture, grid, edgeMargin⟩ := e
    obtain rfl : gesture = .drawing anchorBeat note := h
    exact ⟨rfl, rfl, rfl, rfl⟩
  · have hreplaced := e.forall₂_replaceByGhosts s
    obtain ⟨gesture, grid, edgeMargin⟩ := e
    cases gesture with
    | moving grabbed captured beatOffset pitchOffset deltaBeat deltaPitch =>
        exact ⟨hreplaced, rfl⟩
    | resizing id originStart originDuration duration => exact ⟨hreplaced, rfl⟩
    | idle | drawing anchorBeat note | marquee anchor cursor => cases h
  · refine ⟨?_, fun n hn hid => ghosts_resizing h hdistinct hn hid⟩
    show e.gesture.ghostIds = [id]
    rw [h]
    rfl
  · rw [h] at htidy
    obtain ⟨-, hleast, -⟩ := htidy
    refine ⟨?_, ?_, fun n hn => ⟨rfl, fun hmost => ?_⟩, fun m _ n _ => moved_offsets hhigh⟩
    · show e.gesture.ghostIds = _
      rw [h]
      rfl
    · show e.gesture.ghosts e.grid s = _
      rw [h]
      rfl
    · have hwrap : Pitch.wrap (n.pitch + deltaPitch) = n.pitch + deltaPitch :=
        Pitch.wrap_of_inRange ⟨by omega, hmost⟩
      show e.grid.clampPitch (Pitch.wrap (n.pitch + deltaPitch)) = _
      rw [hwrap]

/-- Notes on three tracks. All but the fourth are selected. -/
def chordDocument : Document Rat :=
  { Document.empty Track.defaults 120 with
    notes := [⟨1, 60, 1, 1, 90, "t_piano"⟩, ⟨2, 94, 3 / 4, 1, 80, "t_bass"⟩,
      ⟨3, 67, 2, 1 / 2, 70, "t_bass"⟩, ⟨4, 62, 0, 1, 60, "t_piano"⟩,
      ⟨5, 64, 1 / 4, 2, 50, "t_kick"⟩]
    nextId := 6 }

def chordSession : Session Rat :=
  { Session.start chordDocument with selection := .ofList [1, 2, 3, 5] }

/-- The first note is dragged half a beat ahead and five semitones up. -/
def chordDrag : GestureEditor Rat :=
  (((ofGrid .standard 6).pointerDown chordSession ⟨50, 876⟩ .primary).editor.pointerMove
    chordSession ⟨30, 756⟩).2

theorem chordDrag_commits :
    chordDrag.Handled ∧ (chordSession.document.notes.map (·.id)).Nodup ∧
    ((chordDrag.pointerUp chordSession).2.2.document.notes.map fun n => (n.id, n.pitch, n.start)) =
      [(1, 65, 1 / 2), (2, 96, 1 / 4), (3, 72, 3 / 2), (4, 62, 0), (5, 69, 0)] ∧
    List.Forall₂ (GaveWay [1, 2, 3, 5] (chordDrag.ghosts chordSession))
      chordSession.document.notes (chordDrag.pointerUp chordSession).2.2.document.notes ∧
    (chordDrag.pointerUp chordSession).1 = .committed := by
  have hdistinct : (chordSession.document.notes.map (·.id)).Nodup := by decide
  have hhandled : chordDrag.Handled :=
    .pointerMove (.pointerDown (.fresh .standard 6) hdistinct ⟨50, 876⟩ .primary) chordSession _
  have hcommits := pointerUp_commits_ghosts hhandled (by decide +kernel) hdistinct
  dsimp only at hcommits
  obtain ⟨-, -, hdisplaced, -, -⟩ := hcommits
  have hdisplaces : chordDrag.gesture.displaces = true := by decide +kernel
  obtain ⟨hreplaced, hup⟩ := hdisplaced hdisplaces
  have hids : chordDrag.gesture.ghostIds = [1, 2, 3, 5] := by decide +kernel
  rw [hids] at hreplaced
  exact ⟨hhandled, hdistinct, by decide +kernel, hreplaced, congrArg Prod.fst hup⟩

end GestureEditor

end NoteRoll
