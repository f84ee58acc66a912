import NoteRoll.Json.Decoder
import NoteRoll.Json.Printer
import NoteRoll.Piece

/-!
# The stored form of a piece

How a piece is written as JSON and read back, from a text or from a value that was read before. A
text is first read as a whole; then a missing tempo, an unusable tempo, missing tracks and missing
clips are reported, in this order.
-/

namespace NoteRoll

/-- Why a stored piece was rejected. -/
inductive ImportError (α : Type) where
  /-- The text or the value does not have the form of a piece. -/
  | form (fault : Json.Fault)
  | missingField (name : String)
  | invalidTempo (bpm : α)

namespace Piece

variable {α : Type} [Scalar α] [NumberText α]

open Json Json.Decoder

/-! ## Writing -/

/-- The word for a kind of track. -/
def kindWord : TrackKind → String
  | .instrument => "instrument"
  | .percussion => "percussion"

/-- A track as it is stored; only a muted one says so. -/
def trackJson (t : Track) : Json :=
  .table ([("id", .text t.id), ("instrument", .text t.name), ("type", .text (kindWord t.kind))] ++
    if t.muted then [("muted", .flag true)] else [])

/-- An entry that is left out where there is nothing to say. -/
def optionalEntry (name : String) (s : Option String) : List (String × Json) :=
  match s with
  | some s => [(name, .text s)]
  | none => []

/-- A clip note as it is stored. -/
def clipNoteJson (n : ClipNote α) : Json :=
  .table (optionalEntry "id" n.id ++
    [("note", ofInt n.pitch), ("start", ofNumber n.start), ("duration", ofNumber n.duration),
      ("velocity", ofInt n.velocity)] ++
    optionalEntry "track_id" n.track)

/-- A placement as it is stored. -/
def placementJson (p : Placement) : Json :=
  .table [("section", .text p.part), ("start_bar", ofInt p.startBar),
    ("track_id", .text p.track), ("clip_id", .text p.clip)]

/-- A piece as it is stored. -/
def toJson (p : Piece α) : Json :=
  .table [("bpm", ofNumber p.bpm),
    ("tracks", .list (p.tracks.map trackJson)),
    ("clips", .table (p.clips.map fun c => (c.1, .list (c.2.map clipNoteJson)))),
    ("arrangement", .list (p.arrangement.map placementJson))]

/-- The text of a stored piece. -/
def toText (p : Piece α) : String := p.toJson.pretty

/-! ## Reading -/

/-- The bounds of whole numbers of 64 signed bits. -/
def wide (α : Type) [NumberText α] : Decoder Int :=
  Decoder.integer α (-9223372036854775808) 9223372036854775807

/-- A track that is being read. -/
structure TrackDraft where
  id : Option String := none
  name : Option String := none
  kind : Option TrackKind := none
  muted : Option Bool := none

/-- Reads a track. -/
def trackDecoder (α : Type) [NumberText α] : Decoder Track :=
  Decoder.record α
    [.of "id" false TrackDraft.id (fun x s => { s with id := some x }) (Decoder.text α),
      .of "instrument" false TrackDraft.name (fun x s => { s with name := some x })
        (Decoder.text α),
      .of "type" false TrackDraft.kind (fun x s => { s with kind := some x })
        (Decoder.choice α [("instrument", .instrument), ("percussion", .percussion)]),
      .of "muted" true TrackDraft.muted (fun x s => { s with muted := some x })
        (Decoder.flag α)]
    {}
    fun s =>
      match s.id, s.name, s.kind with
      | some id, some name, some kind => some ⟨id, name, kind, s.muted.getD false⟩
      | _, _, _ => none

/-- A clip note that is being read. -/
structure ClipNoteDraft (α : Type) where
  id : Option (Option String) := none
  pitch : Option Int := none
  start : Option α := none
  duration : Option α := none
  velocity : Option Int := none
  track : Option (Option String) := none

/-- Reads a clip note. -/
def clipNoteDecoder : Decoder (ClipNote α) :=
  Decoder.record α
    [.of "id" true ClipNoteDraft.id (fun x s => { s with id := some x })
        (Decoder.optional (Decoder.text α)),
      .of "note" false ClipNoteDraft.pitch (fun x s => { s with pitch := some x }) (wide α),
      .of "start" false ClipNoteDraft.start (fun x s => { s with start := some x })
        Decoder.number,
      .of "duration" false ClipNoteDraft.duration (fun x s => { s with duration := some x })
        Decoder.number,
      .of "velocity" true ClipNoteDraft.velocity (fun x s => { s with velocity := some x })
        (wide α),
      .of "track_id" true ClipNoteDraft.track (fun x s => { s with track := some x })
        (Decoder.optional (Decoder.text α))]
    {}
    fun s =>
      match s.pitch, s.start, s.duration with
      | some pitch, some start, some duration =>
        some ⟨s.id.join, pitch, start, duration, s.velocity.getD Note.defaultVelocity,
          s.track.join⟩
      | _, _, _ => none

/-- A placement that is being read. -/
structure PlacementDraft where
  part : Option String := none
  startBar : Option Int := none
  track : Option String := none
  clip : Option String := none

/-- Reads a placement. -/
def placementDecoder (α : Type) [NumberText α] : Decoder Placement :=
  Decoder.record α
    [.of "section" true PlacementDraft.part (fun x s => { s with part := some x })
        (Decoder.text α),
      .of "start_bar" true PlacementDraft.startBar (fun x s => { s with startBar := some x })
        (Decoder.integer α 0 4294967295),
      .of "track_id" false PlacementDraft.track (fun x s => { s with track := some x })
        (Decoder.text α),
      .of "clip_id" false PlacementDraft.clip (fun x s => { s with clip := some x })
        (Decoder.text α)]
    {}
    fun s =>
      match s.track, s.clip with
      | some track, some clip =>
        some ⟨s.part.getD "", (s.startBar.getD 0).toNat, track, clip⟩
      | _, _ => none

/-- A piece of which anything may be missing. A member that is null counts as missing. -/
structure Draft (α : Type) where
  bpm : Option (Option α) := none
  tracks : Option (Option (List Track)) := none
  clips : Option (Option (List (String × List (ClipNote α)))) := none
  arrangement : Option (Option (List Placement)) := none

/-- Reads a piece of which anything may be missing. -/
def draftDecoder : Decoder (Draft α) :=
  Decoder.record α
    [.of "bpm" false Draft.bpm (fun x s => { s with bpm := some x })
        (Decoder.optional Decoder.number),
      .of "tracks" false Draft.tracks (fun x s => { s with tracks := some x })
        (Decoder.optional (Decoder.list α (trackDecoder α))),
      .of "clips" false Draft.clips (fun x s => { s with clips := some x })
        (Decoder.optional (Decoder.table α (Decoder.list α clipNoteDecoder))),
      .of "arrangement" true Draft.arrangement (fun x s => { s with arrangement := some x })
        (Decoder.optional (Decoder.list α (placementDecoder α)))]
    {}
    some

/-- The piece that a draft amounts to. -/
def ofDraft (d : Draft α) : Except (ImportError α) (Piece α) :=
  match d.bpm.join with
  | none => .error (.missingField "bpm")
  | some bpm =>
    if !Tempo.isValid bpm then .error (.invalidTempo bpm) else
      match d.tracks.join with
      | none => .error (.missingField "tracks")
      | some tracks =>
        match d.clips.join with
        | none => .error (.missingField "clips")
        | some clips => .ok ⟨bpm, tracks, clips, d.arrangement.join.getD []⟩

/-- What was read as a draft or not at all. -/
def ofReading (r : Except Fault (Draft α)) : Except (ImportError α) (Piece α) :=
  match r with
  | .error fault => .error (.form fault)
  | .ok draft => ofDraft draft

/-- Reads a piece from a text. -/
def ofText (text : String) : Except (ImportError α) (Piece α) :=
  ofReading (draftDecoder.ofText text)

/-- Reads a piece from a value. -/
def ofValue (v : Json) : Except (ImportError α) (Piece α) := ofReading (draftDecoder.ofValue v)

end Piece

namespace ImportError

variable {α : Type} [Scalar α] [NumberText α]

/-- The beginning of the message about a text without the form of a piece. -/
def formMessage : String := "malformed JSON"

/-- What the user is told. -/
def message : ImportError α → String
  | .form _ => formMessage
  | .missingField name => "invalid music data structure: missing `" ++ name ++ "`"
  | .invalidTempo bpm =>
    "invalid tempo " ++ NumberText.plain bpm ++ ": bpm must be greater than zero"

end ImportError

end NoteRoll
