import NoteRoll.App.Draw
import NoteRoll.Proofs.Inputs

/-!
# Runs that nothing stops

What runs checks each sum that may leave the machine's numbers, and stops where one does.
What is proved of a studio or of the application is mostly proved of the operations
without checks. This is the bridge between the two: an operation with checks answers as
the one without, or not at all, and so does a use of the studio (`Studio.run?_eq_some`),
a use of the application (`App.run?_eq_some`) and a picture of it (`App.draw?_eq_some`).
These three are results in their own right. Whatever is said elsewhere of all runs, of
all inputs or of all pictures is by them said of the program that runs.

Where the checks are passed is a question of its own. It is answered here for the roll,
by a condition on each row and each note (`Roll.project?_eq`), and a list of checks is
brought together into one by `mapM_ite`.
-/

namespace NoteRoll

variable {σ α : Type}

/-! ## Checks, one by one -/

/-- What is done to all members of a list under a check is done to all or to none. -/
theorem mapM_ite {β γ : Type} {check : β → Option γ} {p : β → Prop} [DecidablePred p]
    {f : β → γ} (h : ∀ x, check x = if p x then some (f x) else none) (xs : List β) :
    xs.mapM check = if ∀ x ∈ xs, p x then some (xs.map f) else none := by
  induction xs with
  | nil => rfl
  | cons x xs ih =>
      rw [List.mapM_cons, ih, h]
      simp only [List.forall_mem_cons]
      by_cases hx : p x
      · by_cases hxs : ∀ y ∈ xs, p y
        · rw [if_pos hx, if_pos hxs, if_pos ⟨hx, hxs⟩]
          rfl
        · rw [if_pos hx, if_neg hxs, if_neg fun hall => hxs hall.2]
          rfl
      · rw [if_neg hx]
        exact (if_neg fun hall => hx hall.1).symm

/-- An answer that waits for checks is the answer. -/
theorem eq_of_checked {β γ : Type} {checks : Option β} {x y : γ}
    (h : (checks.map fun _ => x) = some y) : x = y := by
  obtain ⟨_, -, hxy⟩ := Option.map_eq_some_iff.1 h
  exact hxy

variable [Scalar α]

/-- What is made of the pitch at a pixel is made of it where that is in range. -/
theorem Grid.map_yToPitch? {β : Type} (grid : Grid α) (y : α) (f : Int → β) :
    (grid.yToPitch? y).map f =
      if Pitch.InRange (grid.highPitch - grid.rowAt y) then some (f (grid.yToPitch y))
      else none := by
  rw [yToPitch?, Pitch.checked?]
  split
  · next h =>
      rw [yToPitch, Pitch.wrap_of_inRange h]
      rfl
  · rfl

omit [Scalar α] in
theorem Grid.scrollPitch?_eq_some {grid grid' : Grid α} {semitones : Int}
    (h : grid.scrollPitch? semitones = some grid') : grid.scrollPitch semitones = grid' := by
  obtain ⟨top, htop, hgrid⟩ := Option.bind_eq_some_iff.1 h
  obtain ⟨hrange, rfl⟩ := Pitch.checked?_eq_some_iff.1 htop
  rw [scrollPitch, Pitch.wrap_of_inRange hrange]
  exact Option.some.inj hgrid

/-- A captured note is moved where its own sum is in range. -/
theorem Gesture.moveNote?_eq (grid : Grid α) (deltaBeat : α) (deltaPitch : Int) (n : Note α) :
    moveNote? grid deltaBeat deltaPitch n =
      if Pitch.InRange (n.pitch + deltaPitch) then some (moveNote grid deltaBeat deltaPitch n)
      else none := by
  rw [moveNote?, Pitch.checked?]
  split
  · next h =>
      rw [moveNote, Pitch.wrap_of_inRange h]
      rfl
  · rfl

theorem GestureEditor.ghosts?_eq_some {e : GestureEditor α} {s : Session α} {ghosts : List (Note α)}
    (h : e.ghosts? s = some ghosts) : e.ghosts s = ghosts := by
  rw [ghosts?, Gesture.ghosts?.eq_def] at h
  rw [GestureEditor.ghosts]
  split at h
  · next hmoving =>
      rw [mapM_ite (Gesture.moveNote?_eq _ _ _)] at h
      rw [hmoving]
      split at h
      · exact Option.some.inj h
      · cases h
  · exact Option.some.inj h

/-! ## Studios -/

namespace Studio

variable [SoundOutput σ α]

theorem gridDown?_eq_some {s : Studio σ α} {p : Point α} {button : PointerButton}
    {r : GestureOutcome × Studio σ α} (h : s.gridDown? p button = some r) :
    s.gridDown p button = r := eq_of_checked h

omit [SoundOutput σ α] in
theorem gridMove?_eq_some {s : Studio σ α} {p : Point α} {r : GestureOutcome × Studio σ α}
    (h : s.gridMove? p = some r) : s.gridMove p = r := eq_of_checked h

omit [SoundOutput σ α] in
theorem gridUp?_eq_some {s : Studio σ α} {r : GestureOutcome × Studio σ α}
    (h : s.gridUp? = some r) : s.gridUp = r := eq_of_checked h

omit [Scalar α] [SoundOutput σ α] in
theorem scrollPitch?_eq_some {s t : Studio σ α} {semitones : Int}
    (h : s.scrollPitch? semitones = some t) : s.mapGrid (·.scrollPitch semitones) = t := by
  obtain ⟨grid, hgrid, rfl⟩ := Option.map_eq_some_iff.1 h
  rw [mapGrid, mapGrid, Grid.scrollPitch?_eq_some hgrid]

variable [NumberText α]

/-- The state after an event, if no check stops it. -/
def next? (s : Studio σ α) : Event α → Option (Studio σ α)
  | .gridDown p button => (s.gridDown? p button).map (·.2)
  | .gridMove p => (s.gridMove? p).map (·.2)
  | .gridUp => s.gridUp?.map (·.2)
  | .scrollPitch semitones => s.scrollPitch? semitones
  | e => some (s.next e)

/-- The state after some events, if no check stops any of them. -/
def run? (s : Studio σ α) (events : List (Event α)) : Option (Studio σ α) := events.foldlM next? s

theorem next?_eq_some {s t : Studio σ α} {e : Event α} (h : s.next? e = some t) :
    s.next e = t := by
  cases e with
  | gridDown p button =>
      obtain ⟨r, hr, rfl⟩ := Option.map_eq_some_iff.1 h
      exact congrArg Prod.snd (gridDown?_eq_some hr)
  | gridMove p =>
      obtain ⟨r, hr, rfl⟩ := Option.map_eq_some_iff.1 h
      exact congrArg Prod.snd (gridMove?_eq_some hr)
  | gridUp =>
      obtain ⟨r, hr, rfl⟩ := Option.map_eq_some_iff.1 h
      exact congrArg Prod.snd (gridUp?_eq_some hr)
  | scrollPitch semitones => exact scrollPitch?_eq_some h
  | _ => exact Option.some.inj h

/-- A use that no check stops comes to what it comes to without checks. -/
theorem run?_eq_some {s t : Studio σ α} {events : List (Event α)} (h : s.run? events = some t) :
    s.run events = t := by
  induction events generalizing s with
  | nil => exact Option.some.inj h
  | cons e es ih =>
      rw [run?, List.foldlM_cons] at h
      obtain ⟨s', hs', hes⟩ := Option.bind_eq_some_iff.1 h
      rw [run_cons, next?_eq_some hs']
      exact ih hes

end Studio

/-! ## The application -/

namespace App

variable [SoundOutput σ α]

theorem mouseDown?_eq_some {a b : App σ α} {button : MouseButton} {col row : Nat}
    (h : a.mouseDown? button col row = some b) : a.mouseDown button col row = b := by
  rw [mouseDown?] at h
  split at h
  · exact eq_of_checked h
  · exact Option.some.inj h

omit [SoundOutput σ α] in
theorem mouseDrag?_eq_some {a b : App σ α} {col row : Nat} (h : a.mouseDrag? col row = some b) :
    a.mouseDrag col row = b := by
  rw [mouseDrag?.eq_def] at h
  split at h
  · exact eq_of_checked h
  · exact Option.some.inj h

omit [SoundOutput σ α] in
theorem mouseUp?_eq_some {a b : App σ α} (h : a.mouseUp? = some b) : a.mouseUp = b := by
  rw [mouseUp?.eq_def] at h
  split at h
  · exact eq_of_checked h
  · exact Option.some.inj h

variable [NumberText α]

theorem perform?_eq_some {a b : App σ α} {action : Action α} (h : a.perform? action = some b) :
    a.perform action = b := by
  cases action with
  | scrollPitch semitones =>
      obtain ⟨studio, hstudio, rfl⟩ := Option.map_eq_some_iff.1 h
      exact congrArg a.withStudio (Studio.scrollPitch?_eq_some hstudio)
  | _ => exact Option.some.inj h

theorem handleAction?_eq_some {a b : App σ α} {action : Action α}
    (h : a.handleAction? action = some b) : a.handleAction action = b := by
  rw [handleAction?] at h
  rw [handleAction]
  split at h
  · next hkept =>
      rw [if_pos hkept]
      exact Option.some.inj h
  · next hkept =>
      rw [if_neg hkept]
      exact perform?_eq_some h

theorem handleMouse?_eq_some {a b : App σ α} {event : MouseEvent} {col row : Nat}
    (h : a.handleMouse? event col row = some b) : a.handleMouse event col row = b := by
  cases event with
  | down button => exact mouseDown?_eq_some h
  | drag => exact mouseDrag?_eq_some h
  | up => exact mouseUp?_eq_some h
  | wheel up shift => cases up <;> cases shift <;> exact handleAction?_eq_some h
  | other => exact Option.some.inj h

variable [Splitter]

/-- The application after an input, if no check stops it. -/
def next? (a : App σ α) : Input σ α → Option (App σ α)
  | .action action => a.handleAction? action
  | .mouse event col row => a.handleMouse? event col row
  | i => some (a.next i)

/-- The application after some inputs, if no check stops any of them. -/
def run? (a : App σ α) (inputs : List (Input σ α)) : Option (App σ α) := inputs.foldlM next? a

theorem next?_eq_some {a b : App σ α} {i : Input σ α} (h : a.next? i = some b) : a.next i = b := by
  cases i with
  | action action => exact handleAction?_eq_some h
  | mouse event col row => exact handleMouse?_eq_some h
  | _ => exact Option.some.inj h

/-- A use that no check stops comes to what it comes to without checks. -/
theorem run?_eq_some {a b : App σ α} {inputs : List (Input σ α)} (h : a.run? inputs = some b) :
    a.run inputs = b := by
  induction inputs generalizing a with
  | nil => exact Option.some.inj h
  | cons i is ih =>
      rw [run?, List.foldlM_cons] at h
      obtain ⟨a', ha', his⟩ := Option.bind_eq_some_iff.1 h
      rw [run_cons, next?_eq_some ha']
      exact ih his

end App

/-! ## Pictures -/

namespace Roll

/-- A note does not begin in the last column or row that there is. -/
structure HasNext (grid : Grid α) (view : Viewport α) (n : Note α) : Prop where
  right : InCells (view.colOf (grid.beatToX n.start) + 1)
  below : InCells (Scalar.truncateInt64 (Scalar.floor (grid.pitchToY n.pitch)) + 1)

instance instDecidableHasNext (grid : Grid α) (view : Viewport α) (n : Note α) :
    Decidable (HasNext grid view n) :=
  decidable_of_iff (InCells (view.colOf (grid.beatToX n.start) + 1) ∧
      InCells (Scalar.truncateInt64 (Scalar.floor (grid.pitchToY n.pitch)) + 1))
    ⟨fun ⟨h, h'⟩ => ⟨h, h'⟩, fun h => ⟨h.1, h.2⟩⟩

theorem nextCell?_of_inCells {cell : Int} (h : InCells (cell + 1)) :
    nextCell? cell = some (cell + 1) := if_pos h

theorem nextCell?_eq_none {cell : Int} (h : ¬ InCells (cell + 1)) : nextCell? cell = none :=
  if_neg h

theorem noteBlock?_eq (grid : Grid α) (view : Viewport α) (n : Note α) :
    noteBlock? grid view n =
      if HasNext grid view n then some (noteBlock grid view n) else none := by
  rw [noteBlock?]
  by_cases hright : InCells (view.colOf (grid.beatToX n.start) + 1)
  · have hcol := nextCell?_of_inCells hright
    rw [Viewport.colOf] at hcol
    by_cases hbelow : InCells (Scalar.truncateInt64 (Scalar.floor (grid.pitchToY n.pitch)) + 1)
    · rw [if_pos ⟨hright, hbelow⟩]
      simp only [hcol, nextCell?_of_inCells hbelow]
      rfl
    · rw [if_neg fun h : HasNext grid view n => hbelow h.below]
      simp only [hcol, nextCell?_eq_none hbelow]
      rfl
  · have hcol := nextCell?_eq_none hright
    rw [Viewport.colOf] at hcol
    rw [if_neg fun h : HasNext grid view n => hright h.right]
    simp only [hcol]
    rfl

theorem paintNotes?_eq (grid : Grid α) (view : Viewport α) (cell : Note α → RollCell)
    (ns : List (Note α)) (cells : Cells) :
    paintNotes? grid view cell ns cells =
      if ∀ n ∈ ns, HasNext grid view n then some (paintNotes grid view cell ns cells)
      else none := by
  induction ns generalizing cells with
  | nil => rfl
  | cons n ns ih =>
      have hstep : paintNotes? grid view cell (n :: ns) cells =
          ((noteBlock? grid view n).map fun block => paint block (cell n) cells).bind
            (paintNotes? grid view cell ns) := List.foldlM_cons ..
      rw [hstep, noteBlock?_eq]
      simp only [List.forall_mem_cons]
      by_cases hn : HasNext grid view n
      · rw [if_pos hn, Option.map_some, Option.bind_some, ih]
        simp only [hn, true_and]
        rfl
      · rw [if_neg hn, if_neg fun hall => hn hall.1]
        rfl

/-- The pitch of a row of cells is in range. -/
abbrev HasPitch (grid : Grid α) (view : Viewport α) (row : Nat) : Prop :=
  Pitch.InRange (grid.highPitch - grid.rowAt (view.cellCenter 0 row).y)

theorem background?_eq (grid : Grid α) (view : Viewport α) :
    background? grid view =
      if ∀ row ∈ List.range view.rows, HasPitch grid view row then some (background grid view)
      else none :=
  mapM_ite (fun row => grid.map_yToPitch? (view.cellCenter 0 row).y _) _

/-- The roll is painted, and as it is without checks, just if each row has a pitch and nothing
that is shown begins in the last column or row that there is. -/
theorem project?_eq (session : Session α) (grid : Grid α) (view : Viewport α)
    (overlay : Overlay α) :
    project? session grid view overlay =
      if (∀ row ∈ List.range view.rows, HasPitch grid view row) ∧
          ∀ n ∈ shownNotes session overlay ++ overlay.ghosts, HasNext grid view n then
        some (project session grid view overlay)
      else none := by
  rw [project?, background?_eq]
  simp only [List.forall_mem_append, paintNotes?_eq]
  by_cases hrows : ∀ row ∈ List.range view.rows, HasPitch grid view row
  · by_cases hnotes : ∀ n ∈ shownNotes session overlay, HasNext grid view n
    · by_cases hghosts : ∀ n ∈ overlay.ghosts, HasNext grid view n
      · rw [if_pos hrows, if_pos ⟨hrows, hnotes, hghosts⟩]
        simp only [if_pos hnotes, if_pos hghosts]
        rfl
      · rw [if_pos hrows, if_neg fun h => hghosts h.2.2]
        simp only [if_pos hnotes, if_neg hghosts]
        rfl
    · rw [if_pos hrows, if_neg fun h => hnotes h.2.1]
      simp only [if_neg hnotes]
      rfl
  · rw [if_neg hrows]
    exact (if_neg fun h => hrows h.1).symm

theorem project?_eq_some {session : Session α} {grid : Grid α} {view : Viewport α}
    {overlay : Overlay α} {cells : Cells} (h : project? session grid view overlay = some cells) :
    project session grid view overlay = cells := by
  rw [project?_eq] at h
  split at h
  · exact Option.some.inj h
  · cases h

theorem gutterLines?_eq_some {grid : Grid α} {rows width : Nat} {theme : Theme}
    {lines : List Line} (h : gutterLines? grid rows width theme = some lines) :
    gutterLines grid rows width theme = lines := by
  rw [gutterLines?, mapM_ite fun row => grid.map_yToPitch? (Scalar.ofNat row + 0.5) _] at h
  split at h
  · exact Option.some.inj h
  · cases h

theorem barNumber?_eq (beat : α) :
    barNumber? beat = if Scalar.truncateNat32 (beat / Piece.beatsPerBar) < 4294967295 then
      some (barNumber beat) else none := by
  rw [barNumber?, barNumber]
  split
  · next h => rw [Nat.mod_eq_of_lt (by omega)]
  · rfl

theorem rulerLabels?_eq_some {grid : Grid α} {view : Viewport α} {labels : List (Nat × Nat)}
    (h : rulerLabels? grid view = some labels) : rulerLabels grid view = labels := by
  have hlabel (col : Nat) :
      ((barNumber? (beatFrom grid view col)).map fun number => (col, number)) =
      if Scalar.truncateNat32 (beatFrom grid view col / Piece.beatsPerBar) < 4294967295 then
        some (col, barNumber (beatFrom grid view col)) else none := by
    rw [barNumber?_eq]
    split <;> rfl
  rw [rulerLabels?, mapM_ite hlabel] at h
  split at h
  · rw [← Option.some.inj h, ← List.filterMap_eq_map', List.filterMap_filter, rulerLabels]
    simp only [decide_eq_true_iff]
  · cases h

end Roll

theorem Status.ordinal?_eq_some {before : α} {number : Nat} (h : ordinal? before = some number) :
    ordinal before = number := by
  rw [ordinal?] at h
  rw [ordinal]
  split at h
  · next hfits => rw [Nat.mod_eq_of_lt (by omega), Option.some.inj h]
  · cases h

theorem Status.position?_eq_some {s : Status α} {text : String} (h : s.position? = some text) :
    s.position = text := by
  obtain ⟨bar, hbar, h⟩ := Option.bind_eq_some_iff.1 h
  obtain ⟨beat, hbeat, h⟩ := Option.bind_eq_some_iff.1 h
  rw [position, ordinal?_eq_some hbar, ordinal?_eq_some hbeat]
  exact Option.some.inj h

namespace App

variable [NumberText α]

/-- Each part that is drawn is one whose sums were checked. -/
theorem drawParts?_eq_some {a : App σ α} {c c' : Canvas} (h : a.drawParts? c = some c') :
    a.studio.gestures.ghosts? a.session = some (a.studio.gestures.ghosts a.session) ∧
    Roll.rulerLabels? a.grid (a.viewport a.layout.ruler) =
      some (Roll.rulerLabels a.grid (a.viewport a.layout.ruler)) ∧
    Roll.project? a.session a.grid (a.viewport a.layout.grid) a.overlay =
      some (Roll.project a.session a.grid (a.viewport a.layout.grid) a.overlay) ∧
    Roll.gutterLines? a.grid a.layout.gutter.height a.layout.gutter.width theme =
      some (Roll.gutterLines a.grid a.layout.gutter.height a.layout.gutter.width theme) ∧
    (Status.capture a.session a.studio.transport).position? =
      some (Status.capture a.session a.studio.transport).position ∧
    a.drawParts c = c' := by
  obtain ⟨ghosts, hghosts, h⟩ := Option.bind_eq_some_iff.1 h
  obtain ⟨labels, hlabels, h⟩ := Option.bind_eq_some_iff.1 h
  obtain ⟨cells, hcells, h⟩ := Option.bind_eq_some_iff.1 h
  obtain ⟨keys, hkeys, h⟩ := Option.bind_eq_some_iff.1 h
  obtain ⟨position, hposition, h⟩ := Option.bind_eq_some_iff.1 h
  rw [GestureEditor.ghosts?_eq_some hghosts, Roll.rulerLabels?_eq_some hlabels,
    Roll.project?_eq_some hcells, Roll.gutterLines?_eq_some hkeys,
    Status.position?_eq_some hposition]
  exact ⟨hghosts, hlabels, hcells, hkeys, hposition, Option.some.inj h⟩

/-- A picture that no check stops is the one without checks. -/
theorem draw?_eq_some [Splitter] {a : App σ α} {width height : Nat} {r : Canvas × App σ α}
    (h : a.draw? width height = some r) : a.draw width height = r := by
  obtain ⟨c, hc, rfl⟩ := Option.map_eq_some_iff.1 h
  obtain ⟨-, -, -, -, -, hparts⟩ := drawParts?_eq_some hc
  rw [draw, hparts]

end App

end NoteRoll
