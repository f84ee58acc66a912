import NoteRoll.Document

/-!
# Selections

A selection is a set of note identities, kept as a strictly increasing list.
-/

namespace NoteRoll

/-- A set of notes, by identity. -/
structure Selection where
  /-- The identities in increasing order. -/
  ids : List NoteId
  deriving DecidableEq

namespace Selection

/-- The selection of nothing. -/
def empty : Selection := ⟨[]⟩

/-- Adds one identity to an increasing list. -/
def insertId (id : NoteId) : List NoteId → List NoteId
  | [] => [id]
  | i :: is => if id < i then id :: i :: is else if id = i then i :: is else i :: insertId id is

/-- The selection of the given notes. -/
def ofList (ids : List NoteId) : Selection := ⟨ids.foldr insertId []⟩

theorem mem_insertId {i id : NoteId} {ids : List NoteId} :
    i ∈ insertId id ids ↔ i = id ∨ i ∈ ids := by
  induction ids with
  | nil => simp only [insertId, List.mem_singleton, List.not_mem_nil, or_false]
  | cons j js ih =>
      rw [insertId]
      split
      · exact List.mem_cons
      · split
        · next hij => subst hij; simp only [List.mem_cons, or_self_left]
        · simp only [List.mem_cons, ih, or_left_comm]

/-- A selection of given notes selects these and no others. -/
theorem mem_ofList {i : NoteId} {ids : List NoteId} : i ∈ (ofList ids).ids ↔ i ∈ ids := by
  induction ids with
  | nil => rfl
  | cons j js ih => exact mem_insertId.trans ((or_congr_right ih).trans List.mem_cons.symm)

/-- The selection of one note. -/
def only (id : NoteId) : Selection := ⟨[id]⟩

/-- Whether a note is selected. -/
def contains (s : Selection) (id : NoteId) : Bool := s.ids.contains id

/-- Number of selected notes. -/
def size (s : Selection) : Nat := s.ids.length

/-- Whether nothing is selected. -/
def isEmpty (s : Selection) : Bool := s.ids.isEmpty

/-- Drops what is no note of the document any more. -/
def prune {α : Type} (s : Selection) (d : Document α) : Selection :=
  ⟨s.ids.filter d.contains⟩

theorem contains_of_mem_prune {α : Type} {s : Selection} {d : Document α} {id : NoteId}
    (h : id ∈ (s.prune d).ids) : d.contains id = true := (List.mem_filter.1 h).2

end Selection

end NoteRoll
