/-!
# The layout of the screen

The screen is cut into rows: a ruler, the roll, the velocity lane, a status line and a message line.
The rows of the first three are cut into columns, of the piano keys, the roll and the list of tracks.
Each part says what it asks for, and a layout library decides what it gets. The roll asks for a least
size only, so that it takes the room that the parts of fixed size leave; on a screen that has not
room enough for all, how they share it is for that library to say.
-/

namespace NoteRoll

/-- A rectangle of screen cells. -/
structure Area where
  x : Nat := 0
  y : Nat := 0
  width : Nat := 0
  height : Nat := 0
  deriving DecidableEq, Repr

namespace Area

/-- Whether a cell is in the area. -/
def contains (a : Area) (col row : Nat) : Bool :=
  decide (a.x ≤ col ∧ col < a.x + a.width ∧ a.y ≤ row ∧ row < a.y + a.height)

end Area

/-! ## Splitting -/

/-- What a part of a stretch of cells asks for. -/
inductive Constraint where
  | length (cells : Nat)
  | min (cells : Nat)
  deriving DecidableEq, Repr

/-- The cells of some parts together. -/
def totalCells : List Nat → Nat
  | [] => 0
  | cells :: parts => cells + totalCells parts

/-- The layout library: how many cells of a stretch each part gets for what it asks. -/
class Splitter where
  sizes : (room : Nat) → List Constraint → List Nat
  /-- Each part gets a size, if only none. -/
  length_sizes : ∀ room parts, (sizes room parts).length = parts.length
  /-- Nothing is given out twice. -/
  sum_sizes_le : ∀ room parts, totalCells (sizes room parts) ≤ room
  /-- Where there is room for all, lengths are what was asked for, and the part that asks for no
  more than a least size gets the rest. -/
  sizes_of_room : ∀ (before after : List Nat) (least room : Nat),
    totalCells before + least + totalCells after ≤ room →
      sizes room (before.map .length ++ .min least :: after.map .length) =
        before ++ (room - (totalCells before + totalCells after)) :: after

namespace Splitter

/-- Gives each part what it asks for as long as there is something left of what is there for its
kind; the first part with a least size gets a surplus as well. -/
def share : (forMins forLengths surplus : Nat) → List Constraint → List Nat
  | _, _, _, [] => []
  | m, l, surplus, .min cells :: parts => (min cells m + surplus) :: share (m - cells) l 0 parts
  | m, l, surplus, .length cells :: parts => min cells l :: share m (l - cells) surplus parts

/-- The cells that the parts with a least size ask for. -/
def mins : List Constraint → Nat
  | [] => 0
  | .min cells :: parts => cells + mins parts
  | .length _ :: parts => mins parts

/-- The cells that the parts of fixed size ask for. -/
def lengths : List Constraint → Nat
  | [] => 0
  | .min _ :: parts => lengths parts
  | .length cells :: parts => cells + lengths parts

theorem length_share (m l surplus : Nat) (parts : List Constraint) :
    (share m l surplus parts).length = parts.length := by
  induction parts generalizing m l surplus with
  | nil => rfl
  | cons part parts ih => cases part <;> exact congrArg (· + 1) (ih _ _ _)

theorem sum_share_le (m l surplus : Nat) (parts : List Constraint) :
    totalCells (share m l surplus parts) ≤
      min (mins parts) m + min (lengths parts) l + surplus := by
  induction parts generalizing m l surplus with
  | nil => exact Nat.zero_le _
  | cons part parts ih =>
      cases part with
      | min cells =>
          have hrest := ih (m - cells) l 0
          rw [share, totalCells, mins, lengths]
          omega
      | length cells =>
          have hrest := ih m (l - cells) surplus
          rw [share, totalCells, mins, lengths]
          omega

theorem share_lengths (m surplus : Nat) {l : Nat} {cells : List Nat} (h : totalCells cells ≤ l)
    (rest : List Constraint) :
    share m l surplus (cells.map .length ++ rest) =
      cells ++ share m (l - totalCells cells) surplus rest := by
  induction cells generalizing l with
  | nil => rfl
  | cons n cells ih =>
      rw [totalCells] at h
      rw [List.map_cons, List.cons_append, share, ih (by omega), Nat.min_eq_left (by omega),
        totalCells, Nat.sub_add_eq]
      rfl

theorem mins_append (cells : List Nat) (rest : List Constraint) :
    mins (cells.map .length ++ rest) = mins rest := by
  induction cells with
  | nil => rfl
  | cons n cells ih => exact ih

theorem lengths_append (cells : List Nat) (rest : List Constraint) :
    lengths (cells.map .length ++ rest) = totalCells cells + lengths rest := by
  induction cells with
  | nil => exact (Nat.zero_add _).symm
  | cons n cells ih =>
      rw [List.map_cons, List.cons_append, lengths, ih, totalCells, Nat.add_assoc]

/-- Least sizes come before lengths, and the parts at the front before those behind. -/
instance instSplitterByPriority : Splitter where
  sizes room parts := share room (room - mins parts) (room - mins parts - lengths parts) parts
  length_sizes _ _ := length_share _ _ _ _
  sum_sizes_le room parts := by
    have hsum := sum_share_le room (room - mins parts) (room - mins parts - lengths parts) parts
    omega
  sizes_of_room before after least room hroom := by
    have hafter := lengths_append after []
    have hnone := mins_append after []
    rw [List.append_nil] at hafter hnone
    simp only [mins_append, lengths_append, mins, lengths, hafter, hnone, Nat.add_zero]
    have hfits : totalCells after ≤ room - least - totalCells before := by omega
    have htail := share_lengths (room - least) 0 hfits []
    rw [List.append_nil, share, List.append_nil] at htail
    rw [share_lengths _ _ (by omega), share, htail]
    congr 2
    omega

end Splitter

/-! ## The parts of the screen -/

/-- The parts of the screen. -/
structure ScreenLayout where
  ruler : Area := {}
  gutter : Area := {}
  grid : Area := {}
  tracks : Area := {}
  lane : Area := {}
  status : Area := {}
  messages : Area := {}
  deriving DecidableEq, Repr

namespace ScreenLayout

/-- Columns of the piano keys beside the roll. -/
def gutterWidth : Nat := 5

/-- Columns of the list of tracks. -/
def tracksWidth : Nat := 26

/-- Rows of the velocity lane. -/
def laneRows : Nat := 5

/-- Columns that the roll asks for. -/
def leastColumns : Nat := 8

/-- Rows that the roll asks for. -/
def leastRows : Nat := 4

/-- The rows of the screen, from the top: the ruler, the roll, the velocity lane, the status line and
the message line. -/
def rowParts : List Constraint :=
  [.length 1, .min leastRows, .length laneRows, .length 1, .length 1]

/-- The columns of the screen, from the left: the piano keys, the roll and the list of tracks. -/
def columnParts : List Constraint :=
  [.length gutterWidth, .min leastColumns, .length tracksWidth]

/-- Where a part of a stretch begins. -/
def offset (start : Nat) (sizes : List Nat) (part : Nat) : Nat :=
  start + totalCells (sizes.take part)

/-- The parts of a screen. -/
def compute [Splitter] (screen : Area) : ScreenLayout :=
  let heights := Splitter.sizes screen.height rowParts
  let widths := Splitter.sizes screen.width columnParts
  let line (row : Nat) : Area :=
    ⟨screen.x, offset screen.y heights row, screen.width, heights.getD row 0⟩
  let part (row column : Nat) : Area :=
    ⟨offset screen.x widths column, offset screen.y heights row, widths.getD column 0,
      heights.getD row 0⟩
  { ruler := part 0 1
    gutter := part 1 0
    grid := part 1 1
    tracks := part 1 2
    lane := part 2 1
    status := line 3
    messages := line 4 }

/-- On a screen that has room for all parts the roll takes what the others leave. -/
theorem compute_of_room [Splitter] {screen : Area}
    (hwidth : gutterWidth + leastColumns + tracksWidth ≤ screen.width)
    (hheight : leastRows + laneRows + 3 ≤ screen.height) :
    let gridX := screen.x + gutterWidth
    let gridY := screen.y + 1
    let gridWidth := screen.width - (gutterWidth + tracksWidth)
    let gridHeight := screen.height - (laneRows + 3)
    let laneY := gridY + gridHeight
    compute screen =
      { ruler := ⟨gridX, screen.y, gridWidth, 1⟩
        gutter := ⟨screen.x, gridY, gutterWidth, gridHeight⟩
        grid := ⟨gridX, gridY, gridWidth, gridHeight⟩
        tracks := ⟨gridX + gridWidth, gridY, tracksWidth, gridHeight⟩
        lane := ⟨gridX, laneY, gridWidth, laneRows⟩
        status := ⟨screen.x, laneY + laneRows, screen.width, 1⟩
        messages := ⟨screen.x, laneY + laneRows + 1, screen.width, 1⟩ } := by
  intro gridX gridY gridWidth gridHeight laneY
  have hwidths : Splitter.sizes screen.width columnParts =
      [gutterWidth, gridWidth, tracksWidth] :=
    Splitter.sizes_of_room [gutterWidth] [tracksWidth] leastColumns screen.width hwidth
  have hrows : totalCells [1] + leastRows + totalCells [laneRows, 1, 1] ≤ screen.height := by
    simp only [totalCells]
    omega
  have hheights : Splitter.sizes screen.height rowParts = [1, gridHeight, laneRows, 1, 1] := by
    refine (Splitter.sizes_of_room [1] [laneRows, 1, 1] leastRows screen.height hrows).trans ?_
    rfl
  simp only [compute, hwidths, hheights, offset, List.take_succ_cons, List.take_zero, totalCells,
    Nat.add_zero, ← Nat.add_assoc, gridX, gridY, laneY]
  rfl

end ScreenLayout

end NoteRoll
