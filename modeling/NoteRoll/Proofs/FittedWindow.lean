import NoteRoll.Proofs.Inputs
import NoteRoll.Proofs.NoteRanges

/-!
# The window of pitches under a change of the screen

Whenever the layout changes the window is cut to the rows that the roll has room
for, around its own middle. The middle is a whole pitch and so is half the span;
both are rounded down. With an odd number of rows the two roundings undo each other
and the window stays. With an even number they add up: the window comes to lie one
pitch lower, at every change of the layout, until it meets the lowest pitch. That the
height of the roll is still the same does not matter to it, a wider screen will do.

What a window was cut to is kept by everything but the next change of the layout,
because scrolling moves both ends alike. That is `Fitted`.
-/

namespace NoteRoll

variable {σ α : Type}

/-! ## Centring a window on itself -/

namespace Grid

/-- A window of as many rows as are asked for sinks by the parity of its span when it
is centred on its own middle. -/
theorem centerOn_middle (g : Grid α) (rows : Nat)
    (hspan : g.lowPitch + min (rows - 1) Pitch.highest = g.highPitch)
    (hhigh : g.highPitch ≤ Pitch.highest) :
    (g.centerOn ((g.lowPitch + g.highPitch) / 2) rows).lowPitch =
      g.lowPitch - min (rows - 1) Pitch.highest % 2 ∧
    (g.centerOn ((g.lowPitch + g.highPitch) / 2) rows).highPitch =
      g.lowPitch - min (rows - 1) Pitch.highest % 2 + min (rows - 1) Pitch.highest := by
  simp only [centerOn, withTop]
  generalize min (rows - 1) Pitch.highest = span at hspan ⊢
  omega

/-- The grid was left as it was, or its window was moved as a whole. -/
def Scrolled (g g' : Grid α) : Prop := g' = g ∨ ∃ semitones, g' = g.scrollPitch semitones

theorem Scrolled.rowHeight {g g' : Grid α} (h : g.Scrolled g') : g'.rowHeight = g.rowHeight := by
  rcases h with rfl | ⟨semitones, rfl⟩
  · rfl
  · rfl

theorem Scrolled.showsPlayable {g g' : Grid α} (h : g.Scrolled g') (hg : g.ShowsPlayable) :
    g'.ShowsPlayable := by
  rcases h with rfl | ⟨semitones, rfl⟩
  · exact hg
  · exact hg.scrollPitch semitones

theorem Scrolled.span {g g' : Grid α} (h : g.Scrolled g') (hg : g.ShowsPlayable) :
    g'.highPitch - g'.lowPitch = g.highPitch - g.lowPitch := by
  rcases h with rfl | ⟨semitones, rfl⟩
  · rfl
  · have hordered := hg.ordered
    simp only [scrollPitch, withTop]
    omega

end Grid

namespace App

variable [Scalar α]

/-- The rows of pitches that there is room for in some rows of the screen. -/
def roomFor (rowHeight : α) (height : Nat) : Nat :=
  Scalar.truncateNat64 (Scalar.larger (Scalar.floor (Scalar.ofNat height / rowHeight)) 1)

theorem resize_layout [Splitter] (a : App σ α) (screen : Area) :
    (a.resize screen).layout = ScreenLayout.compute screen := by
  rw [resize]
  split
  · next h => exact h.symm
  · rfl

theorem resize_of_same [Splitter] {a : App σ α} {screen : Area}
    (h : ScreenLayout.compute screen = a.layout) :
    a.resize screen = a := if_pos h

theorem resize_grid [Splitter] {a : App σ α} {screen : Area}
    (h : ScreenLayout.compute screen ≠ a.layout) :
    (a.resize screen).grid = a.grid.centerOn ((a.grid.lowPitch + a.grid.highPitch) / 2)
      (roomFor a.grid.rowHeight (ScreenLayout.compute screen).grid.height) := by
  rw [resize, if_neg h]
  rfl

/-! ## Windows that were fitted -/

/-- The window has the rows that the roll has room for. -/
structure Fitted (a : App σ α) : Prop where
  span : a.grid.highPitch - a.grid.lowPitch =
    min (roomFor a.grid.rowHeight a.layout.grid.height - 1) Pitch.highest
  playable : a.grid.ShowsPlayable

/-- A change of the layout fits the window. -/
theorem fitted_resize [Splitter] {a : App σ α} {screen : Area}
    (h : ScreenLayout.compute screen ≠ a.layout) :
    (a.resize screen).Fitted := by
  have hgrid := resize_grid h
  constructor
  · rw [resize_layout, hgrid]
    simp only [Grid.centerOn, Grid.withTop]
    omega
  · rw [hgrid]
    exact Grid.showsPlayable_centerOn _ _ _

theorem Fitted.resize [Splitter] {a : App σ α} (h : a.Fitted) (screen : Area) :
    (a.resize screen).Fitted := by
  by_cases hsame : ScreenLayout.compute screen = a.layout
  · rw [resize_of_same hsame]
    exact h
  · exact fitted_resize hsame

/-- The layout is the same, and the window was at most moved as a whole. -/
structure KeepsSpan (a b : App σ α) : Prop where
  layout : b.layout = a.layout
  grid : a.grid.Scrolled b.grid

theorem KeepsSpan.fitted {a b : App σ α} (h : KeepsSpan a b) (ha : a.Fitted) : b.Fitted := by
  constructor
  · rw [h.grid.span ha.playable, h.grid.rowHeight, h.layout]
    exact ha.span
  · exact h.grid.showsPlayable ha.playable

omit [Scalar α] in
theorem keepsSpan_inform (a : App σ α) (text : String) : KeepsSpan a (a.inform text) :=
  ⟨rfl, .inl rfl⟩

omit [Scalar α] in
theorem keepsSpan_session (a : App σ α) (session : Session α) :
    KeepsSpan a (a.withStudio { a.studio with session }) := ⟨rfl, .inl rfl⟩

omit [Scalar α] in
theorem KeepsSpan.informIf {a b : App σ α} (h : KeepsSpan a b) (count : Nat) (text : String) :
    KeepsSpan a (b.informIf count text) := by
  rw [App.informIf]
  split
  · exact h
  · exact ⟨h.layout, h.grid⟩

omit [Scalar α] in
theorem KeepsSpan.informTrack {a b : App σ α} (h : KeepsSpan a b) (state : Option Bool)
    (yes no : String) : KeepsSpan a (b.informTrack state yes no) := by
  rw [App.informTrack.eq_def]
  split
  · exact ⟨h.layout, h.grid⟩
  · exact h

section Inputs

variable [SoundOutput σ α] [NumberText α]

omit [Scalar α] [SoundOutput σ α] in
theorem write_keepsSpan (a : App σ α) : KeepsSpan a a.write := by
  rw [write.eq_def]
  split
  · exact ⟨rfl, .inl rfl⟩
  · split
    · exact ⟨rfl, .inl rfl⟩
    · exact ⟨rfl, .inl rfl⟩

/-- Of the actions only one touches the window, and that one scrolls it. -/
theorem perform_keepsSpan (a : App σ α) (action : Action α) : KeepsSpan a (a.perform action) := by
  cases action with
  | scrollPitch semitones => exact ⟨rfl, .inr ⟨semitones, rfl⟩⟩
  | togglePlayback =>
      rw [perform]
      split <;> exact ⟨rfl, .inl rfl⟩
  | undo =>
      show KeepsSpan a (if a.session.undo.1
        then a.withStudio { a.studio with session := a.session.undo.2 }
        else a.inform "nothing to undo")
      split
      · exact a.keepsSpan_session _
      · exact a.keepsSpan_inform _
  | redo =>
      show KeepsSpan a (if a.session.redo.1
        then a.withStudio { a.studio with session := a.session.redo.2 }
        else a.inform "nothing to redo")
      split
      · exact a.keepsSpan_session _
      · exact a.keepsSpan_inform _
  | deleteSelected => exact (a.keepsSpan_session _).informIf _ _
  | paste => exact (a.keepsSpan_session _).informIf _ _
  | toggleMute => exact (a.keepsSpan_session _).informTrack _ _ _
  | toggleHidden => exact (a.keepsSpan_session _).informTrack _ _ _
  | write => exact a.write_keepsSpan
  | quit | rewind | scrollBeats beats | copy | nextTrack | setTool tool | setSnap quantum
  | adjustTempo change | cancel => exact ⟨rfl, .inl rfl⟩

theorem handleAction_keepsSpan (a : App σ α) (action : Action α) :
    KeepsSpan a (a.handleAction action) := by
  rw [handleAction]
  split
  · exact ⟨rfl, .inl rfl⟩
  · exact a.perform_keepsSpan action

omit [NumberText α] in
theorem mouseDown_keepsSpan (a : App σ α) (button : MouseButton) (col row : Nat) :
    KeepsSpan a (a.mouseDown button col row) := by
  rw [mouseDown]
  split
  · have hgrid := a.studio.gestures.pointerDown_grid a.studio.session
      (a.pixelAt a.layout.grid col row) (pointerOf button)
    simp only [pressGrid, Studio.gridDown]
    split <;> exact ⟨rfl, .inl hgrid⟩
  · split
    · rcases a.studio.velocities.pointerDown_cases a.studio.session
        (a.grid.xToBeat (a.pixelAt a.layout.lane col row).x) (a.laneY row) with
        ⟨-, h⟩ | ⟨n, -, h⟩
      · simp only [pressLane, Studio.laneDown, h]
        exact ⟨rfl, .inl rfl⟩
      · simp only [pressLane, Studio.laneDown, h]
        exact ⟨rfl, .inl rfl⟩
    · split
      · exact ⟨rfl, .inl rfl⟩
      · split
        · rw [pressTracks]
          split <;> exact ⟨rfl, .inl rfl⟩
        · exact ⟨rfl, .inl rfl⟩

omit [SoundOutput σ α] [NumberText α] in
theorem mouseDrag_keepsSpan (a : App σ α) (col row : Nat) :
    KeepsSpan a (a.mouseDrag col row) := by
  rw [mouseDrag.eq_def]
  split
  · exact ⟨rfl, .inl (a.studio.gestures.pointerMove_grid a.studio.session _)⟩
  · split <;> exact ⟨rfl, .inl rfl⟩
  · exact ⟨rfl, .inl rfl⟩

omit [SoundOutput σ α] [NumberText α] in
theorem mouseUp_keepsSpan (a : App σ α) : KeepsSpan a a.mouseUp := by
  have hgrid : (a.studio.gestures.pointerUp a.studio.session).2.1.grid = a.grid := by
    rw [GestureEditor.pointerUp_editor]
    rfl
  rw [mouseUp.eq_def]
  split
  · simp only [Studio.gridUp]
    split <;> exact ⟨rfl, .inl hgrid⟩
  · exact ⟨rfl, .inl rfl⟩
  · exact ⟨rfl, .inl rfl⟩

/-- Whatever reaches the application, but a new size of the screen. -/
theorem next_keepsSpan [Splitter] (a : App σ α) {i : Input σ α} (h : ∀ screen, i ≠ .resize screen) :
    KeepsSpan a (a.next i) := by
  cases i with
  | action action => exact a.handleAction_keepsSpan action
  | resize screen => exact absurd rfl (h screen)
  | tick time => exact ⟨rfl, .inl rfl⟩
  | elapse change => exact ⟨rfl, .inl rfl⟩
  | mouse event col row =>
      cases event with
      | down button => exact a.mouseDown_keepsSpan button col row
      | drag => exact a.mouseDrag_keepsSpan col row
      | up => exact a.mouseUp_keepsSpan
      | wheel up shift => cases up <;> cases shift <;> exact a.handleAction_keepsSpan _
      | other => exact ⟨rfl, .inl rfl⟩

theorem Fitted.next [Splitter] {a : App σ α} (h : a.Fitted) (i : Input σ α) :
    (a.next i).Fitted := by
  cases i with
  | resize screen => exact h.resize screen
  | action | mouse | tick | elapse =>
      refine (a.next_keepsSpan fun screen hresize => ?_).fitted h
      cases hresize

theorem Fitted.run [Splitter] {a : App σ α} (h : a.Fitted) (inputs : List (Input σ α)) :
    (a.run inputs).Fitted := by
  induction inputs generalizing a with
  | nil => exact h
  | cons i is ih => exact ih (h.next i)

/-- Once a screen has changed the layout, the window is fitted. -/
theorem fitted_of_resized [Splitter] {a : App σ α} {inputs : List (Input σ α)} {screen : Area}
    (hresized : .resize screen ∈ inputs) (hchanges : ScreenLayout.compute screen ≠ a.layout) :
    (a.run inputs).Fitted := by
  induction inputs generalizing a with
  | nil => cases hresized
  | cons i is ih =>
      by_cases hfirst : ∃ first, i = .resize first ∧ ScreenLayout.compute first ≠ a.layout
      · obtain ⟨first, rfl, hchanged⟩ := hfirst
        exact (fitted_resize hchanged).run is
      · have hlater : .resize screen ∈ is := by
          rcases List.mem_cons.1 hresized with rfl | hlater
          · exact absurd ⟨screen, rfl, hchanges⟩ hfirst
          · exact hlater
        have hsame : (a.next i).layout = a.layout := by
          by_cases hresize : ∃ first, i = .resize first
          · obtain ⟨first, rfl⟩ := hresize
            exact (a.resize_layout first).trans
              (not_not.1 fun hchanged => hfirst ⟨first, rfl, hchanged⟩)
          · exact (a.next_keepsSpan fun first h => hresize ⟨first, h⟩).layout
        exact ih hlater (hsame ▸ hchanges)

end Inputs

/-! ## Changes of the layout that leave the roll its height -/

/-- How often the layout changes over some screens. -/
def relayouts [Splitter] (layout : ScreenLayout) : List Area → Nat
  | [] => 0
  | screen :: screens =>
    (if ScreenLayout.compute screen = layout then 0 else 1) +
      relayouts (ScreenLayout.compute screen) screens

/-- The pitches that the window sinks by when the layout changes. -/
def sinking (a : App σ α) : Nat := if a.grid.rows % 2 = 0 then 1 else 0

theorem Fitted.resize_window [Splitter] {a : App σ α} (h : a.Fitted) {screen : Area}
    (hheight : (ScreenLayout.compute screen).grid.height = a.layout.grid.height) :
    (a.resize screen).grid.rows = a.grid.rows ∧
    (a.resize screen).grid.lowPitch = a.grid.lowPitch -
      (if ScreenLayout.compute screen = a.layout then 0 else 1) * a.sinking := by
  have hordered := h.playable.ordered
  have hspan := h.span
  by_cases hsame : ScreenLayout.compute screen = a.layout
  · rw [resize_of_same hsame, if_pos hsame]
    omega
  · obtain ⟨hlow, hhigh⟩ := a.grid.centerOn_middle
      (roomFor a.grid.rowHeight a.layout.grid.height) (by omega) h.playable.playable
    rw [← hheight, ← resize_grid hsame] at hlow hhigh
    rw [hheight] at hlow hhigh
    rw [if_neg hsame, sinking, Grid.rows, Grid.rows]
    split <;> omega

variable [SoundOutput σ α] [NumberText α]

theorem Fitted.resizes_window [Splitter] {a : App σ α} (h : a.Fitted) {screens : List Area}
    (hheight : ∀ screen ∈ screens,
      (ScreenLayout.compute screen).grid.height = a.layout.grid.height) :
    (a.run (screens.map .resize)).grid.rows = a.grid.rows ∧
    (a.run (screens.map .resize)).grid.lowPitch =
      a.grid.lowPitch - relayouts a.layout screens * a.sinking := by
  induction screens generalizing a with
  | nil => exact ⟨rfl, by simp [relayouts]⟩
  | cons screen screens ih =>
      obtain ⟨hfirst, hothers⟩ := List.forall_mem_cons.1 hheight
      obtain ⟨hrows, hlow⟩ := h.resize_window hfirst
      have hlayout := a.resize_layout screen
      obtain ⟨hrows', hlow'⟩ := ih (h.resize screen) fun s hs => by
        rw [hlayout, hfirst]
        exact hothers s hs
      refine ⟨hrows'.trans hrows, hlow'.trans ?_⟩
      rw [hlow, hlayout, sinking, sinking, hrows, relayouts, Nat.add_mul]
      exact Nat.sub_sub _ _ _

/-- Over screens that all leave the roll its height, a fitted window keeps its rows. If
their number is even it sinks by one pitch at each change of the layout, down to the
lowest pitch; if it is odd the window stays. So it stays exactly if its rows are odd in
number, or it shows the lowest pitch, or the layout never changes. -/
theorem window_of_resizes [Splitter] {a : App σ α} (h : a.Fitted) {screens : List Area}
    (hheight : ∀ screen ∈ screens,
      (ScreenLayout.compute screen).grid.height = a.layout.grid.height) :
    let b := a.run (screens.map .resize)
    b.grid.rows = a.grid.rows ∧
    b.grid.lowPitch =
      a.grid.lowPitch - relayouts a.layout screens * (if a.grid.rows % 2 = 0 then 1 else 0) ∧
    ((b.grid.lowPitch = a.grid.lowPitch ∧ b.grid.highPitch = a.grid.highPitch) ↔
      a.grid.rows % 2 = 1 ∨ a.grid.lowPitch = 0 ∨ relayouts a.layout screens = 0) := by
  intro b
  obtain ⟨hrows, hlow⟩ := h.resizes_window hheight
  rw [sinking] at hlow
  refine ⟨hrows, hlow, ?_⟩
  have hordered := h.playable.ordered
  have hordered' := (h.run (screens.map .resize)).playable.ordered
  rw [Grid.rows, Grid.rows] at hrows
  rw [Grid.rows] at hlow ⊢
  show ((a.run _).grid.lowPitch = _ ∧ (a.run _).grid.highPitch = _) ↔ _
  split at hlow <;> omega

/-- An application that was opened on a screen of one hundred columns. -/
def framed (height : Nat) : App (Recorder Float) Float :=
  run (start (Session.start Document.standard) (Recorder.start true 0.0) .standard none)
    [.resize ⟨0, 0, 100, height⟩]

theorem framed_fitted (height : Nat) : (framed height).Fitted :=
  fitted_of_resized (List.mem_singleton.2 rfl) fun hnone =>
    absurd (congrArg (fun layout => layout.gutter.width) hnone) (by decide : (5 : Nat) ≠ 0)

/-- A roll of thirty-one rows stays where it is, however the width changes. -/
theorem framed_stays :
    let screens : List Area := [⟨0, 0, 101, 39⟩, ⟨0, 0, 80, 39⟩, ⟨0, 0, 100, 39⟩]
    (framed 39).Fitted ∧
    (∀ screen ∈ screens,
      (ScreenLayout.compute screen).grid.height = (framed 39).layout.grid.height) ∧
    ((framed 39).run (screens.map .resize)).grid.lowPitch = (framed 39).grid.lowPitch := by
  intro screens
  have hheight : ∀ screen ∈ screens,
      (ScreenLayout.compute screen).grid.height = (framed 39).layout.grid.height := by
    decide +kernel
  have hodd : (framed 39).grid.rows % 2 = 1 := by decide +kernel
  obtain ⟨-, -, hstays⟩ := window_of_resizes (framed_fitted 39) hheight
  exact ⟨framed_fitted 39, hheight, (hstays.2 (.inl hodd)).1⟩

/-- One column more, and a roll of thirty-two rows is scrolled by a pitch. -/
theorem framed_sinks :
    (framed 40).Fitted ∧
    (ScreenLayout.compute ⟨0, 0, 101, 40⟩).grid.height = (framed 40).layout.grid.height ∧
    ((framed 40).grid.lowPitch, (framed 40).grid.highPitch) = (43, 74) ∧
    (((framed 40).resize ⟨0, 0, 101, 40⟩).grid.lowPitch,
      ((framed 40).resize ⟨0, 0, 101, 40⟩).grid.highPitch) = (42, 73) :=
  ⟨framed_fitted 40, by decide +kernel, by decide +kernel, by decide +kernel⟩

end App

end NoteRoll
