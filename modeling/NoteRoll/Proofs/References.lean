import NoteRoll.Decimal.Exact
import NoteRoll.Proofs.Playable

/-!
# What a session refers to is there

A session names notes and tracks that it does not own: the selected notes, the
active track, the hidden tracks. Notes go with every commit, and tracks go when other
ones are imported. That the selection follows is part of `step_moves`; here it is the
tracks.

Most events leave them alone, by `next_editsNotes`. Of the others an import is the
one with something in it. A piece that lists tracks replaces all of them, so that the
active one is chosen anew and hidden ones are dropped; a piece that lists none has to
leave everything as it is, since there would be no first track to choose.
-/

namespace NoteRoll

variable {α : Type}

theorem Document.mem_of_track? {d : Document α} {id : TrackId}
    (h : (d.track? id).isSome = true) : id ∈ d.tracks.map (·.id) := by
  obtain ⟨t, ht⟩ := Option.isSome_iff_exists.1 h
  have hid := List.find?_some ht
  exact List.mem_map.2 ⟨t, List.mem_of_find?_eq_some ht, eq_of_beq hid⟩

theorem Track.first_mem {tracks : List Track} (h : tracks ≠ []) :
    Track.first tracks ∈ tracks.map (·.id) := by
  cases tracks with
  | nil => exact absurd rfl h
  | cons t ts => exact List.mem_cons_self

/-- The active track and the hidden ones are tracks of the document. -/
structure Session.NamesTracks (s : Session α) : Prop where
  active : s.activeTrack ∈ s.document.tracks.map (·.id)
  hidden : ∀ id ∈ s.hidden, id ∈ s.document.tracks.map (·.id)

namespace Session

variable {s s' : Session α}

theorem namesTracks_start [Scalar α] {d : Document α} (h : d.tracks ≠ []) :
    (start d).NamesTracks :=
  ⟨Track.first_mem h, fun _ hid => absurd hid List.not_mem_nil⟩

/-- It is only the identities of the tracks that count, and not what they are like. -/
theorem NamesTracks.congr (h : s.NamesTracks)
    (htracks : s'.document.tracks.map (·.id) = s.document.tracks.map (·.id))
    (hactive : s'.activeTrack = s.activeTrack) (hhidden : s'.hidden = s.hidden) :
    s'.NamesTracks := by
  constructor
  · rw [htracks, hactive]
    exact h.active
  · rw [htracks, hhidden]
    exact h.hidden

theorem NamesTracks.sameSettings (h : s.NamesTracks) (hsame : s.SameSettings s') :
    s'.NamesTracks :=
  h.congr (congrArg _ hsame.tracks) hsame.activeTrack hsame.hidden

theorem NamesTracks.takeTracks (h : s.NamesTracks) (tracks : List Track) :
    (s.takeTracks tracks).NamesTracks := by
  rw [Session.takeTracks]
  split
  · exact h
  · next hsome =>
      refine ⟨Track.first_mem fun hnil => hsome (List.isEmpty_iff.2 hnil), fun id hid => ?_⟩
      obtain ⟨t, ht, hsame⟩ := List.any_eq_true.1 (List.mem_filter.1 hid).2
      exact List.mem_map.2 ⟨t, ht, eq_of_beq hsame⟩

theorem NamesTracks.setActiveTrack (h : s.NamesTracks) (id : TrackId) :
    (s.setActiveTrack id).2.NamesTracks := by
  rw [Session.setActiveTrack]
  split
  · next hthere => exact ⟨Document.mem_of_track? hthere, h.hidden⟩
  · exact h

theorem NamesTracks.cycleActiveTrack (h : s.NamesTracks) : s.cycleActiveTrack.NamesTracks := by
  simp only [Session.cycleActiveTrack]
  split
  · next t ht => exact ⟨List.mem_map_of_mem (List.mem_of_getElem? ht), h.hidden⟩
  · exact h

theorem NamesTracks.toggleMute (h : s.NamesTracks) (id : TrackId) :
    (s.toggleMute id).2.NamesTracks := by
  rw [Session.toggleMute]
  split
  · exact h
  · next t ht =>
      refine h.congr ?_ rfl rfl
      refine map_updateFirst ?_ s.document.tracks
      exact fun _ => rfl

theorem NamesTracks.toggleHidden (h : s.NamesTracks) (id : TrackId) :
    (s.toggleHidden id).2.NamesTracks := by
  rw [Session.toggleHidden]
  split
  · exact h
  · next t ht =>
      split
      · exact ⟨h.active, fun i hi => h.hidden i (List.mem_filter.1 hi).1⟩
      · have hid := Document.mem_of_track? (Option.isSome_iff_exists.2 ⟨t, ht⟩)
        exact ⟨h.active, List.forall_mem_cons.2 ⟨hid, h.hidden⟩⟩

variable [Scalar α]

theorem NamesTracks.setBpm (h : s.NamesTracks) (bpm : α) :
    NamesTracks { s with document := (s.document.setBpm bpm).2 } := by
  rw [Document.setBpm]
  split <;> exact h.congr rfl rfl rfl

theorem NamesTracks.applyPiece (h : s.NamesTracks) (p : Piece α) :
    (s.applyPiece p).2.NamesTracks :=
  ((h.setBpm p.bpm).takeTracks p.tracks).congr rfl rfl rfl

theorem NamesTracks.applyResult {ε : Type} (h : s.NamesTracks) (r : Except ε (Piece α)) :
    (s.applyResult r).2.NamesTracks := by
  cases r with
  | error e => exact h
  | ok p => exact h.applyPiece p

end Session

namespace Studio

section Events

variable {σ : Type} [Scalar α] [NumberText α] [SoundOutput σ α]

theorem next_namesTracks {s : Studio σ α} (h : s.session.NamesTracks) (e : Event α) :
    (s.next e).session.NamesTracks := by
  by_cases he : e.isAboutNotes = true
  · exact h.sameSettings (s.next_editsNotes he).toSameSettings
  · cases e with
    | applyPiece piece => exact h.applyPiece piece
    | importText text => exact h.applyResult _
    | generate service prompt =>
        have hidle : Session.NamesTracks { s.session with remote := .idle } := h.congr rfl rfl rfl
        exact hidle.applyResult _
    | setActiveTrack id => exact h.setActiveTrack id
    | cycleActiveTrack => exact h.cycleActiveTrack
    | toggleMute id => exact h.toggleMute id
    | toggleHidden id => exact h.toggleHidden id
    | setBpm bpm => exact h.setBpm _
    | _ => exact absurd rfl he

/-- From a session on a document with tracks, whatever is done to it in whatever
order: what is selected are notes of the document, and the active track and the
hidden ones are among its tracks. -/
theorem references_exist {fresh : Studio σ α} {d : Document α}
    (hfresh : fresh.session = Session.start d) (htracks : d.tracks ≠ []) (events : List (Event α)) :
    let s := (fresh.run events).session
    (∀ id ∈ s.selection.ids, ∃ n ∈ s.document.notes, n.id = id) ∧
    (∃ t ∈ s.document.tracks, t.id = s.activeTrack) ∧
    ∀ id ∈ s.hidden, ∃ t ∈ s.document.tracks, t.id = id := by
  intro s
  have hlives : s.selection.Lives s.document :=
    Reachable.lives (s := fresh.run events) ⟨d, fresh, events, hfresh, rfl⟩
  have htracks : s.NamesTracks := by
    refine run_keeps (P := fun s => s.session.NamesTracks) ?_ ?_ events
    · exact fun _ e h => next_namesTracks h e
    · rw [hfresh]
      exact Session.namesTracks_start htracks
  refine ⟨fun id hid => ?_, List.mem_map.1 htracks.active, fun id hid => ?_⟩
  · exact List.mem_map.1 (Document.contains_iff.1 (hlives id hid))
  · exact List.mem_map.1 (htracks.hidden id hid)

end Events

/-- A piece that has one of the usual tracks and one of its own. -/
def duoPiece : Piece Rat where
  bpm := 90
  tracks := [⟨"t_kick", "Kick", .percussion, false⟩, ⟨"t_lead", "Lead", .instrument, true⟩]
  clips := [("c", [⟨none, 60, 0, 1, 90, none⟩])]
  arrangement := [⟨"Full", 0, "t_lead", "c"⟩]

/-- Two tracks are hidden, of which the piece has one. Its note is selected while
another one is being drawn, and is taken back before that is committed. -/
def interruptedDraw : List (Event Rat) :=
  [.toggleHidden "t_bass", .toggleHidden "t_kick", .cycleActiveTrack, .applyPiece duoPiece,
    .select [1], .gridDown ⟨80, 240⟩ .primary, .undo, .gridUp]

/-- A studio on an empty document with the usual tracks. -/
def untouched : Studio (Recorder Rat) Rat :=
  ⟨Session.start (.empty Track.defaults 120), .ofGrid .standard 6, .ofLane .standard,
    .ofTiming .standard, .start true 0⟩

theorem interruptedDraw_references :
    (untouched.run interruptedDraw).session.selection.ids = [2] ∧
    (untouched.run interruptedDraw).session.activeTrack = "t_kick" ∧
    (untouched.run interruptedDraw).session.hidden = ["t_kick"] ∧
    (∃ n ∈ (untouched.run interruptedDraw).session.document.notes, n.id = 2) ∧
    ∃ t ∈ (untouched.run interruptedDraw).session.document.tracks, t.id = "t_kick" := by
  have hselected : (untouched.run interruptedDraw).session.selection.ids = [2] := by decide +kernel
  have hhidden : (untouched.run interruptedDraw).session.hidden = ["t_kick"] := by decide +kernel
  have hfresh : untouched.session = Session.start (.empty Track.defaults 120) := rfl
  obtain ⟨hnotes, -, htracks⟩ :=
    references_exist hfresh (List.cons_ne_nil _ _) interruptedDraw
  refine ⟨hselected, by decide +kernel, hhidden, hnotes 2 ?_, htracks "t_kick" ?_⟩
  · rw [hselected]
    exact List.mem_singleton.2 rfl
  · rw [hhidden]
    exact List.mem_singleton.2 rfl

end Studio

end NoteRoll
