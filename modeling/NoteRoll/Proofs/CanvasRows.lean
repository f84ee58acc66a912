import NoteRoll.App.Draw

/-!
# Rows of the canvas

Whatever is written onto the canvas, it is written a row at a time. `ActsIn` is what
there is to know about it: one row is made over, by what was in that row and nothing
else, and all other rows stay. So lines that are written one below the other do not
see each other, and a row of an area shows the line that is its turn as if no other had
been written.
-/

namespace NoteRoll

/-- Of things that are put one below the other from the top of an area, as many as it has
rows, the one that comes to a row. -/
def Area.entryAt? {β : Type} (a : Area) (entries : List β) (row : Nat) : Option β :=
  if a.y ≤ row ∧ row < a.y + a.height then entries[row - a.y]? else none

namespace Canvas

/-! ## Operations on one row -/

/-- An operation makes one row over, going by that row alone. -/
def ActsIn (y : Nat) (op : Canvas → Canvas) : Prop :=
  ∃ change : Array ScreenCell → Array ScreenCell, ∀ c, (op c).rows = c.rows.modify y change

variable {y row : Nat} {op op' : Canvas → Canvas}

theorem ActsIn.row_of_ne (h : ActsIn y op) (c : Canvas) (hne : row ≠ y) :
    (op c).rows[row]? = c.rows[row]? := by
  obtain ⟨change, hchange⟩ := h
  rw [hchange, Array.getElem?_modify, if_neg hne.symm]

theorem ActsIn.row_congr (h : ActsIn y op) {c d : Canvas} (hrow : c.rows[y]? = d.rows[y]?) :
    (op c).rows[y]? = (op d).rows[y]? := by
  obtain ⟨change, hchange⟩ := h
  rw [hchange, hchange, Array.getElem?_modify, Array.getElem?_modify, if_pos rfl, if_pos rfl, hrow]

theorem actsIn_id (y : Nat) : ActsIn y fun c => c := by
  refine ⟨id, fun c => Array.ext_getElem? fun i => ?_⟩
  rw [Array.getElem?_modify, Option.map_id, id, ite_self]

theorem actsIn_modify (x y : Nat) (f : ScreenCell → ScreenCell) :
    ActsIn y fun c => c.modify x y f := ⟨fun row => row.modify x f, fun _ => rfl⟩

theorem ActsIn.comp (h' : ActsIn y op') (h : ActsIn y op) : ActsIn y fun c => op' (op c) := by
  obtain ⟨change, hchange⟩ := h
  obtain ⟨change', hchange'⟩ := h'
  refine ⟨change' ∘ change, fun c => Array.ext_getElem? fun i => ?_⟩
  rw [hchange', hchange]
  simp only [Array.getElem?_modify]
  split
  · rw [Option.map_map]
  · rfl

theorem ActsIn.foldl {β : Type} {ops : β → Canvas → Canvas} (h : ∀ b, ActsIn y (ops b))
    (bs : List β) : ActsIn y fun c => bs.foldl (fun c b => ops b c) c := by
  induction bs with
  | nil => exact actsIn_id y
  | cons b bs ih => exact ih.comp (h b)

/-! ## Writing -/

theorem actsIn_put (x y : Nat) (cluster : List Char) (s : Style) :
    ActsIn y fun c => c.put x y cluster s := actsIn_modify x y _

theorem actsIn_append (x y : Nat) (cluster : List Char) (s : Style) :
    ActsIn y fun c => c.append x y cluster s := actsIn_modify x y _

theorem actsIn_clearBehind (x y cells : Nat) : ActsIn y fun c => c.clearBehind x y cells :=
  .foldl (fun i => actsIn_modify (x + 1 + i) y fun _ => {}) _

theorem actsIn_writeClusters (y width : Nat) (line : List (List Char × Style)) :
    ∀ x room, ActsIn y fun c => c.writeClusters x y width room line := by
  induction line with
  | nil => exact fun _ _ => actsIn_id y
  | cons piece rest ih =>
      obtain ⟨cluster, style⟩ := piece
      intro x room
      simp only [writeClusters]
      by_cases hskipped : (clusterCells cluster = 0 || width < clusterCells cluster) = true
      · simp only [if_pos hskipped]
        exact ih x room
      · by_cases hfull : room < clusterCells cluster
        · simp only [if_neg hskipped, if_pos hfull]
          exact actsIn_id y
        · simp only [if_neg hskipped, if_neg hfull]
          exact (ih _ _).comp ((actsIn_clearBehind x y _).comp (actsIn_put x y cluster style))

theorem actsIn_writeLine (x y width : Nat) (line : Line) :
    ActsIn y fun c => c.writeLine x y width line := actsIn_writeClusters y width _ x width

theorem actsIn_writeFurther (start y : Nat) (style : Style) (clusters : List (List Char)) :
    ∀ x room, ActsIn y fun c => c.writeFurther start x y style room clusters := by
  induction clusters with
  | nil => exact fun _ _ => actsIn_id y
  | cons cluster rest ih =>
      intro x room
      simp only [writeFurther]
      by_cases hfull : room < clusterCells cluster
      · simp only [if_pos hfull]
        exact actsIn_id y
      · simp only [if_neg hfull]
        refine (ih _ _).comp ((actsIn_clearBehind x y _).comp ?_)
        by_cases hfirst : x = start
        · simp only [if_pos hfirst]
          exact actsIn_append x y cluster style
        · by_cases hmark : clusterCells cluster = 0
          · simp only [if_neg hfirst, if_pos hmark]
            exact actsIn_append (x - 1) y cluster style
          · simp only [if_neg hfirst, if_neg hmark]
            exact actsIn_put x y cluster style

theorem actsIn_writeSpan (x y room : Nat) (span : Span) :
    ActsIn y fun c => c.writeSpan x y room span := by
  simp only [writeSpan]
  cases shownClusters span.text with
  | nil => exact actsIn_id y
  | cons cluster rest =>
      by_cases hfull : room < clusterCells cluster
      · simp only [if_pos hfull]
        exact actsIn_id y
      · simp only [if_neg hfull]
        exact (actsIn_writeFurther x y span.style rest _ _).comp
          ((actsIn_clearBehind x y _).comp (actsIn_put x y cluster span.style))

theorem actsIn_writeEntry (y : Nat) (entry : Line) :
    ∀ x room, ActsIn y fun c => c.writeEntry x y room entry := by
  induction entry with
  | nil => exact fun _ _ => actsIn_id y
  | cons span rest ih =>
      intro x room
      simp only [writeEntry]
      by_cases hfull : room = 0
      · simp only [if_pos hfull]
        exact actsIn_id y
      · by_cases hempty : textWidth span.text.toList = 0
        · simp only [if_neg hfull, if_pos hempty]
          exact ih x room
        · simp only [if_neg hfull, if_neg hempty]
          exact (ih _ _).comp (actsIn_writeSpan x y room span)

/-- Without room an entry leaves no trace. -/
theorem writeEntry_no_room (c : Canvas) (x y : Nat) (entry : Line) :
    c.writeEntry x y 0 entry = c := by
  cases entry with
  | nil => rfl
  | cons span rest => rw [writeEntry, if_pos rfl]

/-! ## One below the other -/

/-- A row shows what is written there as if nothing else had been written. -/
theorem foldl_zipIdx_row {β : Type} {write : Nat → β → Canvas → Canvas}
    (h : ∀ y b, ActsIn y (write y b)) (bs : List β) (top first row : Nat) (c : Canvas) :
    ((bs.zipIdx first).foldl (fun c b => write (top + b.2) b.1 c) c).rows[row]? =
      (if top + first ≤ row then bs[row - (top + first)]? else none).elim c.rows[row]?
        fun b => (write row b c).rows[row]? := by
  induction bs generalizing first c with
  | nil => simp
  | cons b bs ih =>
      rw [List.zipIdx_cons, List.foldl_cons, ih]
      rcases Nat.lt_trichotomy row (top + first) with habove | rfl | hbelow
      · rw [if_neg (by omega), if_neg (by omega)]
        exact (h _ b).row_of_ne c (by omega)
      · rw [if_neg (by omega), if_pos (Nat.le_refl _), Nat.sub_self]
        rfl
      · obtain ⟨i, rfl⟩ := Nat.exists_eq_add_of_lt hbelow
        have hrest : top + first + i + 1 - (top + (first + 1)) = i := by omega
        have hwhole : top + first + i + 1 - (top + first) = i + 1 := by omega
        rw [if_pos (by omega), if_pos (by omega), hrest, hwhole, List.getElem?_cons_succ]
        -- The entry above has changed its own row only.
        have hother := (h (top + first) b).row_of_ne c (show top + first + i + 1 ≠ _ by omega)
        cases bs[i]? with
        | none => exact hother
        | some later => exact (h _ later).row_congr hother

variable {β : Type} {write : Nat → β → Canvas → Canvas}

theorem foldl_take_row (h : ∀ y b, ActsIn y (write y b)) (a : Area) (bs : List β) (row : Nat)
    (c : Canvas) :
    ((bs.take a.height).zipIdx.foldl (fun c b => write (a.y + b.2) b.1 c) c).rows[row]? =
      (a.entryAt? bs row).elim c.rows[row]? fun b => (write row b c).rows[row]? := by
  rw [foldl_zipIdx_row h, Area.entryAt?, List.getElem?_take]
  by_cases htop : a.y ≤ row
  · by_cases hbottom : row < a.y + a.height
    · rw [if_pos (by omega), if_pos (by omega), if_pos ⟨htop, hbottom⟩]
      rfl
    · rw [if_pos (by omega), if_neg (by omega), if_neg (by omega)]
  · rw [if_neg (by omega), if_neg (by omega)]

theorem writeEntries_row (c : Canvas) (a : Area) (entries : List Line) (row : Nat) :
    (c.writeEntries a entries).rows[row]? = (a.entryAt? entries row).elim c.rows[row]?
      fun entry => (c.writeEntry a.x row a.width entry).rows[row]? :=
  foldl_take_row (fun y entry => actsIn_writeEntry y entry a.x a.width) a entries row c

theorem writeLines_row_of_lt (c : Canvas) (a : Area) (lines : List Line) (h : row < a.y) :
    (c.writeLines a lines).rows[row]? = c.rows[row]? := by
  rw [writeLines, foldl_take_row (fun y line => actsIn_writeLine a.x y a.width line),
    Area.entryAt?, if_neg (by omega), Option.elim_none]

theorem restyle_row_of_lt (c : Canvas) (a : Area) (s : Style) (h : row < a.y) :
    (c.restyle a s).rows[row]? = c.rows[row]? := by
  have hlines (is : List Nat) (c : Canvas) : (is.foldl (fun c i => (List.range a.width).foldl
      (fun c j => c.modify (a.x + j) (a.y + i) (·.restyle s)) c) c).rows[row]? = c.rows[row]? := by
    induction is generalizing c with
    | nil => rfl
    | cons i is ih =>
        have hline := ActsIn.foldl (fun j => actsIn_modify (a.x + j) (a.y + i) (·.restyle s))
          (List.range a.width)
        exact (ih _).trans (hline.row_of_ne c (by omega))
  exact hlines _ c

end Canvas

end NoteRoll
