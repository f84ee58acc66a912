import Mathlib.Tactic.NormNum
import NoteRoll.Decimal.Exact
import NoteRoll.Proofs.Playable
import NoteRoll.Proofs.VelocityStems

/-!
# Notes stay in range

`Note.ofFields` brings every field of a note into its range, and nothing else
does. What changes a note afterwards writes single fields: a resized note gets a
length, a moved one an onset and a pitch, a dragged stem a velocity. Each of these
has a bound of its own making, so the ranges are closed under all of them, and
`Note.Kept` does the rest.

The one bound that does not stand beside the write is that of a moved pitch. It is
the window of the grid, which scrolling and centring move: a moved note is playable
only because every window that the grid ever shows is.
-/

namespace NoteRoll

/-! ## The window -/

namespace Grid

variable {α : Type} {g : Grid α}

/-- The window is not empty and shows playable pitches only. -/
structure ShowsPlayable (g : Grid α) : Prop where
  ordered : g.lowPitch ≤ g.highPitch
  playable : g.highPitch ≤ Pitch.highest

theorem showsPlayable_ofRange [Scalar α] (beatWidth rowHeight : α) (low high : Nat) :
    (ofRange beatWidth rowHeight low high).ShowsPlayable :=
  ⟨Nat.min_le_right _ _, Nat.min_le_right _ _⟩

theorem showsPlayable_withTop (g : Grid α) {span : Nat} (h : span ≤ Pitch.highest) (top : Int) :
    (g.withTop span top).ShowsPlayable := by
  constructor
  · simp only [withTop]
    omega
  · simp only [withTop]
    omega

theorem ShowsPlayable.scrollPitch (h : g.ShowsPlayable) (semitones : Int) :
    (g.scrollPitch semitones).ShowsPlayable :=
  g.showsPlayable_withTop ((Nat.sub_le _ _).trans h.playable) _

theorem showsPlayable_centerOn (g : Grid α) (center rows : Nat) :
    (g.centerOn center rows).ShowsPlayable :=
  g.showsPlayable_withTop (Nat.min_le_right _ _) _

theorem ShowsPlayable.clampPitch_le (h : g.ShowsPlayable) (pitch : Int) :
    g.clampPitch pitch ≤ Pitch.highest := by
  have hordered := h.ordered
  have hplayable := h.playable
  rw [clampPitch]
  omega

end Grid

/-! ## Notes -/

/-- A note each of whose fields is in its range. -/
structure Note.InRange (n : Note Rat) : Prop where
  pitch : n.pitch ≤ 127
  start : 0 ≤ n.start
  duration : 0 < n.duration
  heard : 1 ≤ n.velocity
  loudest : n.velocity ≤ 127

theorem Note.inRange_ofFields (id : NoteId) (pitch : Int) (start duration : Rat) (velocity : Int)
    (track : TrackId) : (Note.ofFields id pitch start duration velocity track).InRange where
  pitch := (intoRange_mem (Nat.zero_le _) pitch).2
  start := by
    show 0 ≤ if Scalar.isFinite start then Scalar.larger start 0 else 0
    split
    · rw [Scalar.larger_eq_max]
      exact le_max_right _ _
    · exact le_refl 0
  duration := Note.kept_lasts.ofFields id pitch start duration velocity track
  heard := (intoRange_mem (by decide) velocity).1
  loudest := (intoRange_mem (by decide) velocity).2

theorem Note.kept_inRange : Note.Kept Note.InRange Grid.ShowsPlayable where
  ofFields := Note.inRange_ofFields
  asLoud hm hn := { hn with heard := hm.heard, loudest := hm.loudest }
  asLong hm hn := { hn with duration := hm.duration }
  atHeight lane y hn :=
    { hn with heard := (lane.velocityAt_mem y).1, loudest := (lane.velocityAt_mem y).2 }
  stretched s length hn :=
    { hn with duration := Note.kept_lasts.stretched s length hn.duration }
  moved deltaBeat deltaPitch hgrid hn :=
    { hn with
      pitch := hgrid.clampPitch_le _
      start := by
        show 0 ≤ Scalar.larger _ 0
        rw [Scalar.larger_eq_max]
        exact le_max_right _ _ }
  scrolled semitones hgrid := hgrid.scrollPitch semitones
  centered center rows _ := Grid.showsPlayable_centerOn _ center rows

namespace Studio

/-- Whatever is done to a piece that began without notes, on whatever grid and
in whatever lane, every note there is has all its fields in range: in the
document, in all that can be undone to and redone to, in the clipboard, and among
the ghosts of the gesture. Of notes that are committed from outside it is asked
that they are in range themselves, as those from `Note.ofFields` are. -/
theorem notes_inRange {σ : Type} [NumberText Rat] [SoundOutput σ Rat] {d : Document Rat}
    {fresh : Studio σ Rat} (hfresh : fresh.Fresh d) (hempty : d.notes = [])
    {beatWidth rowHeight : Rat} {low high : Nat}
    (hgrid : fresh.gestures.grid = .ofRange beatWidth rowHeight low high)
    {events : List (Event Rat)} (hbrought : fresh.Along (Brings Note.InRange) events) :
    let s := fresh.run events
    (∀ n ∈ s.session.document.notes, n.InRange) ∧
    (∀ notes ∈ s.session.history.log, ∀ n ∈ notes, n.InRange) ∧
    (∀ n ∈ s.session.clipboard, n.InRange) ∧
    ∀ n ∈ s.gestures.ghosts s.session, n.InRange := by
  intro s
  have hstart : fresh.Every Note.InRange Grid.ShowsPlayable := by
    refine hfresh.every ?_ ?_
    · rw [hempty]
      exact fun n hn => absurd hn List.not_mem_nil
    · rw [hgrid]
      exact Grid.showsPlayable_ofRange _ _ _ _
  have hend : s.Every Note.InRange Grid.ShowsPlayable :=
    hbrought.run_keeps (fun _ _ he hs => hs.next Note.kept_inRange he) hstart
  refine ⟨hend.session.document, ?_, ?_, ?_⟩
  · exact fun notes hnotes => hend.session notes (.inr (.inr hnotes))
  · exact hend.session _ (.inr (.inl rfl))
  · exact GestureEditor.every_ghosts Note.kept_inRange hend.session hend.gesture hend.grid

/-- A piece whose one note is out of range in every field. -/
def strayPiece : Piece Rat where
  bpm := 120
  tracks := []
  clips := [("c", [⟨none, 300, -4, -1, 0, none⟩])]
  arrangement := [⟨"Full", 0, "t_piano", "c"⟩]

/-- The stray note is dragged off the grid while the quantum and the window change,
its stem is pulled out of the lane, it is copied and pasted before the beginning,
and a note is being drawn where the grid is not. -/
def roughHandling : List (Event Rat) :=
  [.commitNotes [.ofFields 1 128 0 0 128 "t_piano"], .applyPiece strayPiece,
    .gridDown ⟨2, 5⟩ .primary, .setSnap (1 / 3), .gridMove ⟨-4000, -9000⟩, .scrollPitch (-100),
    .gridUp, .laneDown 0 (-1000), .laneUp, .undo, .select [2], .copySelected, .pasteAt (-3),
    .gridDown ⟨-90, 7⟩ .primary, .gridMove ⟨-500, 7⟩]

/-- A studio whose grid was asked for pitches that there are not. -/
def unhandled : Studio (Recorder Rat) Rat :=
  ⟨Session.start (.empty Track.defaults 120), .ofGrid (.ofRange 40 24 24 200) 1, .ofLane .standard,
    .ofTiming .standard, .start true 0⟩

def roughlyHandled : Studio (Recorder Rat) Rat := unhandled.run roughHandling

theorem roughHandling_inRange :
    unhandled.Fresh (.empty Track.defaults 120) ∧
    unhandled.Along (Brings Note.InRange) roughHandling ∧
    (roughlyHandled.session.document.notes.map fun n => (n.pitch, n.start, n.duration, n.velocity)) =
      [(103, 0, 1 / 8, 1), (103, 0, 1 / 8, 1)] ∧
    roughlyHandled.gestures.ghosts roughlyHandled.session ≠ [] ∧
    ∀ n ∈ roughlyHandled.gestures.ghosts roughlyHandled.session, n.InRange := by
  have hfresh : unhandled.Fresh (.empty Track.defaults 120) := ⟨rfl, rfl, rfl⟩
  have hbrought : unhandled.Along (Brings Note.InRange) roughHandling := by
    refine ⟨fun n hn => ?_, trivial, trivial, trivial, trivial, trivial, trivial, trivial, trivial,
      trivial, trivial, trivial, trivial, trivial, trivial, trivial⟩
    rw [List.mem_singleton.1 hn]
    exact Note.inRange_ofFields ..
  obtain ⟨-, -, -, hghosts⟩ := notes_inRange hfresh rfl rfl hbrought
  exact ⟨hfresh, hbrought, by decide +kernel, by decide +kernel, hghosts⟩

end Studio

end NoteRoll
