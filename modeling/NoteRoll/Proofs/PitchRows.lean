import NoteRoll.Proofs.FittedWindow
import NoteRoll.Proofs.GrabbedNotes

/-!
# Rows and pitches

The screen asks a grid where the row of a pitch begins, the pointer asks which pitch a row is
of. A row is counted down from the highest pitch in view, so both answers move with the
window. That they stay each other's inverse needs nothing of the window but that its highest
pitch is playable, and it goes for the pitches outside of the window as well.

A window is scrolled, centred, and fitted to a new size of the screen, and fitting it is one
more way of centring it. `App.changeWindow_grid` says so, and both things that the rows rely
on, that the window shows playable pitches and that a row keeps its height, follow from it.
-/

namespace NoteRoll

variable {σ α : Type}

/-! ## The size of a window -/

namespace Grid

variable {g : Grid α}

theorem rows_centerOn (g : Grid α) (center rows : Nat) :
    (g.centerOn center rows).rows = min (max rows 1) 128 := by
  simp only [Grid.rows, centerOn, withTop, Pitch.highest]
  omega

theorem ShowsPlayable.rows_scrollPitch (h : g.ShowsPlayable) (semitones : Int) :
    (g.scrollPitch semitones).rows = g.rows :=
  congrArg (· + 1) (Scrolled.span (.inr ⟨semitones, rfl⟩) h)

end Grid

/-! ## Changes of the window -/

/-- What moves the window of pitches or changes its size. -/
inductive WindowChange where
  | scroll (semitones : Int)
  | center (pitch rows : Nat)
  /-- The screen has a size. -/
  | screen (size : Area)

namespace App

variable [Scalar α] [Splitter]

/-- The application after a change of its window. -/
def changeWindow (a : App σ α) : WindowChange → App σ α
  | .scroll semitones => a.withStudio (a.studio.mapGrid (·.scrollPitch semitones))
  | .center pitch rows => a.withStudio (a.studio.mapGrid (·.centerOn pitch rows))
  | .screen size => a.resize size

/-- The application after some changes of its window. -/
def changeWindows (a : App σ α) (changes : List WindowChange) : App σ α :=
  changes.foldl changeWindow a

/-- A change moves the window as a whole or centres it. -/
theorem changeWindow_grid (a : App σ α) (change : WindowChange) :
    a.grid.Scrolled (a.changeWindow change).grid ∨
      ∃ center rows, (a.changeWindow change).grid = a.grid.centerOn center rows := by
  cases change with
  | scroll semitones => exact .inl (.inr ⟨semitones, rfl⟩)
  | center pitch rows => exact .inr ⟨pitch, rows, rfl⟩
  | screen size =>
      by_cases hsame : ScreenLayout.compute size = a.layout
      · exact .inl (.inl (congrArg App.grid (resize_of_same hsame)))
      · exact .inr ⟨_, _, resize_grid hsame⟩

theorem changeWindow_showsPlayable {a : App σ α} (h : a.grid.ShowsPlayable)
    (change : WindowChange) : (a.changeWindow change).grid.ShowsPlayable := by
  rcases a.changeWindow_grid change with hscrolled | ⟨center, rows, hcentred⟩
  · exact hscrolled.showsPlayable h
  · rw [hcentred]
    exact Grid.showsPlayable_centerOn _ _ _

theorem changeWindow_rowHeight (a : App σ α) (change : WindowChange) :
    (a.changeWindow change).grid.rowHeight = a.grid.rowHeight := by
  rcases a.changeWindow_grid change with hscrolled | ⟨center, rows, hcentred⟩
  · exact hscrolled.rowHeight
  · rw [hcentred]
    rfl

theorem changeWindows_showsPlayable {a : App σ α} (h : a.grid.ShowsPlayable)
    (changes : List WindowChange) : (a.changeWindows changes).grid.ShowsPlayable := by
  induction changes generalizing a with
  | nil => exact h
  | cons change changes ih => exact ih (changeWindow_showsPlayable h change)

theorem changeWindows_rowHeight (a : App σ α) (changes : List WindowChange) :
    (a.changeWindows changes).grid.rowHeight = a.grid.rowHeight := by
  induction changes generalizing a with
  | nil => rfl
  | cons change changes ih =>
      exact (ih (a.changeWindow change)).trans (a.changeWindow_rowHeight change)

end App

/-! ## Back and forth -/

namespace Grid

variable {g : Grid Rat} {pitch : Nat} {y : Rat}

/-- A pixel is in the row of a playable pitch just if that is the pitch at the pixel. -/
theorem ShowsPlayable.yToPitch_eq_iff (h : g.ShowsPlayable) (hheight : 0 < g.rowHeight)
    (hpitch : pitch ≤ 127) :
    g.yToPitch y = pitch ↔ g.pitchToY pitch ≤ y ∧ y < g.pitchToY pitch + g.rowHeight := by
  have hhigh : g.highPitch ≤ 255 := h.playable.trans (by decide)
  constructor
  · exact fun heq => pitchToY_le_of_yToPitch hheight hhigh heq.symm
  · rintro ⟨htop, hbottom⟩
    exact (yToPitch_of_pitchToY_le hheight hhigh (by omega) htop hbottom).symm

end Grid

namespace App

/-- A grid with rows of some height is made for any range of pitches; then its window is
scrolled, centred and fitted to screens. It always shows playable pitches, and at least one.
Scrolling keeps their number, and centring shows as many as are asked for, from one up to
all. Anywhere in the row of a playable pitch, in view or not, that pitch is found; and where
it is found the pixel is in its row. -/
theorem rows_and_pitches_agree [Splitter] {a : App σ Rat} {beatWidth rowHeight : Rat}
    {low high : Nat} (hgrid : a.grid = .ofRange beatWidth rowHeight low high)
    (hheight : 0 < rowHeight) (changes : List WindowChange) :
    let g := (a.changeWindows changes).grid
    (g.lowPitch ≤ g.highPitch ∧ g.highPitch ≤ 127 ∧ g.rowHeight = rowHeight) ∧
    (∀ semitones, (g.scrollPitch semitones).rows = g.rows) ∧
    (∀ center rows, (g.centerOn center rows).rows = min (max rows 1) 128) ∧
    ∀ pitch ≤ 127,
      (∀ d, 0 ≤ d → d < rowHeight → g.yToPitch (g.pitchToY pitch + d) = pitch) ∧
      ∀ y, g.yToPitch y = pitch →
        g.pitchToY pitch ≤ y ∧ y < g.pitchToY pitch + rowHeight := by
  intro g
  have hshows : g.ShowsPlayable := by
    refine changeWindows_showsPlayable ?_ changes
    rw [hgrid]
    exact Grid.showsPlayable_ofRange beatWidth rowHeight low high
  have hrows : g.rowHeight = rowHeight := by
    rw [changeWindows_rowHeight, hgrid]
    rfl
  refine ⟨⟨hshows.ordered, hshows.playable, hrows⟩, hshows.rows_scrollPitch, g.rows_centerOn,
    fun pitch hpitch => ?_⟩
  rw [← hrows] at hheight ⊢
  have hiff {y : Rat} := hshows.yToPitch_eq_iff (y := y) hheight hpitch
  refine ⟨fun d hd hrow => hiff.2 ⟨?_, ?_⟩, fun y => hiff.1⟩
  · linarith
  · linarith

/-- An application on a grid for pitches that are not playable, with rows of a pixel and a
half. -/
def outOfRange : App (Recorder Rat) Rat :=
  let a := start (Session.start Document.standard) (Recorder.start true 0) .standard none
  a.withStudio (a.studio.mapGrid fun _ => .ofRange (7 / 2) (3 / 2) 200 255)

/-- Scrolled down, opened wide, fitted to a screen and scrolled up, it shows 58 to 78; the
highest pitch of all is found above that and the twelfth below. -/
theorem outOfRange_agrees :
    let changes : List WindowChange :=
      [.scroll (-12), .center 250 1000, .screen ⟨0, 0, 100, 40⟩, .scroll 5]
    let g := (outOfRange.changeWindows changes).grid
    0 < (3 / 2 : Rat) ∧ (outOfRange.grid.lowPitch, outOfRange.grid.highPitch) = (127, 127) ∧
    (g.lowPitch, g.highPitch) = (58, 78) ∧ (g.scrollPitch 12).rows = g.rows ∧
    (g.centerOn 3 0).rows = 1 ∧ g.pitchToY 127 = -147 / 2 ∧ g.yToPitch (-145 / 2) = 127 ∧
    g.pitchToY 12 ≤ 100 ∧ (100 : Rat) < g.pitchToY 12 + 3 / 2 := by
  intro changes g
  have hheight : 0 < (3 / 2 : Rat) := by norm_num
  obtain ⟨-, hscroll, hcenter, hpitches⟩ :=
    rows_and_pitches_agree (a := outOfRange) rfl hheight changes
  have htop : g.pitchToY 127 = -147 / 2 := by decide +kernel
  have hback := (hpitches 127 (by decide)).1 1 (by norm_num) (by norm_num)
  have hplace : g.pitchToY 127 + 1 = -145 / 2 := by
    rw [htop]
    norm_num
  rw [hplace] at hback
  obtain ⟨habove, hbelow⟩ := (hpitches 12 (by decide)).2 100 (by decide +kernel)
  exact ⟨hheight, by decide +kernel, by decide +kernel, hscroll 12, hcenter 3 0, htop, hback,
    habove, hbelow⟩

end App

end NoteRoll
