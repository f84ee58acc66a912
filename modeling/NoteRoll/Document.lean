import NoteRoll.Note

/-!
# Documents

A document is the flat list of notes, the list of tracks and the tempo, together with the supply of
fresh note identities. Replacing the notes keeps the supply ahead of every identity in use, which is
why an identity that was ever given out is never given to another note.
-/

namespace NoteRoll

/-- Changes the first element that has a property. -/
def updateFirst {β : Type} (p : β → Bool) (f : β → β) : List β → List β
  | [] => []
  | b :: bs => if p b then f b :: bs else b :: updateFirst p f bs

/-- A change that a view does not see leaves the view of the whole list alone. -/
theorem map_updateFirst {β γ : Type} {p : β → Bool} {f : β → β} {g : β → γ}
    (h : ∀ b, g (f b) = g b) (l : List β) : (updateFirst p f l).map g = l.map g := by
  induction l with
  | nil => rfl
  | cons b bs ih =>
      rw [updateFirst]
      split
      · rw [List.map_cons, List.map_cons, h]
      · rw [List.map_cons, List.map_cons, ih]

/-- What all elements have and the change keeps, all have after it. -/
theorem forall_mem_updateFirst {β : Type} {p : β → Bool} {f : β → β} {P : β → Prop} {l : List β}
    (hl : ∀ b ∈ l, P b) (hf : ∀ b, P b → P (f b)) : ∀ b ∈ updateFirst p f l, P b := by
  induction l with
  | nil => exact hl
  | cons c cs ih =>
      rw [List.forall_mem_cons] at hl
      rw [updateFirst]
      split
      · exact List.forall_mem_cons.2 ⟨hf c hl.1, hl.2⟩
      · exact List.forall_mem_cons.2 ⟨hl.1, ih hl.2⟩

theorem updateFirst_updateFirst {β : Type} {p : β → Bool} {f g : β → β}
    (hp : ∀ b, p (g b) = p b) (hf : ∀ b, f (g b) = f b) (l : List β) :
    updateFirst p f (updateFirst p g l) = updateFirst p f l := by
  induction l with
  | nil => rfl
  | cons b bs ih =>
      rw [updateFirst, updateFirst]
      split
      · next hb => rw [updateFirst, if_pos ((hp b).trans hb), hf]
      · next hb => rw [updateFirst, if_neg hb, ih]

theorem updateFirst_of_find?_none {β : Type} {p : β → Bool} {f : β → β} {l : List β}
    (h : l.find? p = none) : updateFirst p f l = l := by
  induction l with
  | nil => rfl
  | cons b bs ih =>
      rw [List.find?_eq_none] at h
      have hb : ¬ p b = true := h b List.mem_cons_self
      rw [updateFirst, if_neg hb, ih]
      exact List.find?_eq_none.2 fun c hc => h c (List.mem_cons_of_mem _ hc)

/-- A change that leaves the first fitting element alone leaves the list alone. -/
theorem updateFirst_of_find?_some {β : Type} {p : β → Bool} {f : β → β} {l : List β} {b : β}
    (h : l.find? p = some b) (hf : f b = b) : updateFirst p f l = l := by
  induction l with
  | nil => rfl
  | cons c cs ih =>
      rw [updateFirst]
      split
      · next hc =>
          rw [List.find?_cons_of_pos hc] at h
          rw [Option.some.inj h, hf]
      · next hc =>
          rw [List.find?_cons_of_neg hc] at h
          rw [ih h]

namespace Tempo

variable {α : Type} [Scalar α]

/-- The tempo of a fresh document, in beats per minute. -/
def standard : α := 120.0

/-- The slowest tempo that the tempo controls offer. -/
def slowest : α := 40.0

/-- The fastest tempo that the tempo controls offer. -/
def fastest : α := 300.0

/-- A tempo is finite and positive. -/
def isValid (bpm : α) : Bool := Scalar.isFinite bpm && decide (0 < bpm)

/-- A tempo brought into the range of the controls. -/
def intoRange (bpm : α) : α :=
  if Scalar.isFinite bpm then Scalar.clamp slowest fastest bpm else standard

end Tempo

/-- A piece being edited. -/
structure Document (α : Type) where
  notes : List (Note α)
  tracks : List Track
  /-- Beats per minute. -/
  bpm : α
  /-- The identity that the next new note gets. -/
  nextId : NoteId

namespace Document

variable {α : Type} [Scalar α]

/-- A document without notes; an unusable tempo is replaced by the standard one. -/
def empty (tracks : List Track) (bpm : α) : Document α where
  notes := []
  tracks
  bpm := if Tempo.isValid bpm then bpm else Tempo.standard
  nextId := 1

/-- The document a new session starts with. -/
def standard : Document α := empty Track.defaults Tempo.standard

/-- Sets the tempo if it is a usable one, and says whether it was. -/
def setBpm (d : Document α) (bpm : α) : Bool × Document α :=
  if Tempo.isValid bpm then (true, { d with bpm }) else (false, d)

/-- Replaces the tracks. -/
def setTracks (d : Document α) (tracks : List Track) : Document α := { d with tracks }

/-- Takes a fresh identity. -/
def allocId (d : Document α) : NoteId × Document α := (d.nextId, { d with nextId := d.nextId + 1 })

/-- The note of an identity. -/
def note? (d : Document α) (id : NoteId) : Option (Note α) := d.notes.find? fun n => n.id == id

/-- Whether an identity is in use. -/
def contains (d : Document α) (id : NoteId) : Bool := d.notes.any fun n => n.id == id

omit [Scalar α] in
theorem contains_iff {d : Document α} {id : NoteId} :
    d.contains id = true ↔ id ∈ d.notes.map (·.id) := by
  simp only [contains, List.any_eq_true, beq_iff_eq, List.mem_map]

/-- The track of an identity. -/
def track? (d : Document α) (id : TrackId) : Option Track := d.tracks.find? fun t => t.id == id

/-- The first identity above those of some notes. -/
def idAfter (notes : List (Note α)) : NoteId := notes.foldl (fun m n => max m (n.id + 1)) 0

/-- Replaces all notes; fresh identities stay ahead of every one present. -/
def replaceNotes (d : Document α) (notes : List (Note α)) : Document α :=
  { d with notes, nextId := max d.nextId (idAfter notes) }

/-- Sets the velocity of one note in place. -/
def setVelocity (d : Document α) (id : NoteId) (velocity : Nat) : Document α :=
  { d with notes := updateFirst (fun n => n.id == id) (fun n => { n with velocity }) d.notes }

/-- Sets whether a track is muted. -/
def setMuted (d : Document α) (id : TrackId) (muted : Bool) : Document α :=
  { d with tracks := updateFirst (fun t => t.id == id) (fun t => { t with muted }) d.tracks }

/-- The latest end of a note; zero where there are none. -/
def endBeat (d : Document α) : α := d.notes.foldl (fun e n => Scalar.larger e n.stop) 0

/-- Number of notes on a track. -/
def noteCount (d : Document α) (track : TrackId) : Nat := d.notes.countP fun n => n.track == track

/-- The position of a note's track among the tracks, or the first where it is on none of them. -/
def trackIndex (d : Document α) (track : TrackId) : Nat :=
  (Track.position? d.tracks track).getD 0

end Document

end NoteRoll
