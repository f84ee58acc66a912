import NoteRoll.Document

/-!
# Pieces

A piece is the shape in which music is stored and exchanged: a tempo, tracks, clips of notes under
names, and an arrangement that places clips on tracks at bars. Packing a flat list of notes makes
one clip per track, placed at the first bar; flattening lays the clips out again.
-/

namespace NoteRoll

/-- A note inside a clip, with beats counted from the clip's beginning. -/
structure ClipNote (α : Type) where
  id : Option String
  pitch : Int
  start : α
  duration : α
  velocity : Int
  /-- The track, if it is not the one that the clip is placed on. -/
  track : Option TrackId

/-- A clip placed on a track at a bar. -/
structure Placement where
  part : String
  startBar : Nat
  track : TrackId
  clip : String
  deriving DecidableEq, Repr

/-- Music as it is stored and exchanged. -/
structure Piece (α : Type) where
  bpm : α
  tracks : List Track
  /-- Clips by name, sorted by it. -/
  clips : List (String × List (ClipNote α))
  arrangement : List Placement

namespace Piece

variable {α : Type} [Scalar α]

/-- Beats in a bar. -/
def beatsPerBar : α := 4.0

/-- The part that a packed piece consists of. -/
def packedPart : String := "Full"

/-- The name of the clip that a track's notes are packed into. -/
def clipName (track : TrackId) : String := "clip_" ++ track

/-- A note as it stands in a packed clip. -/
def packNote (n : Note α) : ClipNote α where
  id := some (NoteId.text n.id)
  pitch := n.pitch
  start := n.start
  duration := n.duration
  velocity := n.velocity
  track := some n.track

/-- The notes of one track, packed. -/
def packTrack (notes : List (Note α)) (track : TrackId) : List (ClipNote α) :=
  (notes.filter fun n => n.track == track).map packNote

/-- Sets a clip among clips sorted by name. -/
def putClip (name : String) (clip : List (ClipNote α)) :
    List (String × List (ClipNote α)) → List (String × List (ClipNote α))
  | [] => [(name, clip)]
  | (k, c) :: cs =>
    if name < k then (name, clip) :: (k, c) :: cs
    else if k = name then (name, clip) :: cs
    else (k, c) :: putClip name clip cs

/-- The tracks that have notes, with the clips of these. -/
def occupied (notes : List (Note α)) (tracks : List Track) :
    List (TrackId × List (ClipNote α)) :=
  (tracks.map fun t => (t.id, packTrack notes t.id)).filter fun c => !c.2.isEmpty

/-- Packs notes into one clip per track, at the first bar. Tracks without notes get no clip, and
notes of unknown tracks are left out. -/
def pack (notes : List (Note α)) (bpm : α) (tracks : List Track) : Piece α where
  bpm
  tracks
  clips := (occupied notes tracks).foldl (fun clips c => putClip (clipName c.1) c.2 clips) []
  arrangement := (occupied notes tracks).map fun c => ⟨packedPart, 0, c.1, clipName c.1⟩

/-- Packs a document. -/
def ofDocument (d : Document α) : Piece α := pack d.notes d.bpm d.tracks

/-- A note of a clip laid out on the flat time line. -/
def unpackNote (placement : Placement) (id : NoteId) (n : ClipNote α) : Note α :=
  Note.ofFields id n.pitch (n.start + Scalar.ofNat placement.startBar * beatsPerBar) n.duration
    n.velocity (n.track.getD placement.track)

/-- All clip notes with their placements, in the order of the arrangement. Placements of missing
clips are passed over. -/
def laidOut (p : Piece α) : List (Placement × ClipNote α) :=
  p.arrangement.flatMap fun placement =>
    ((p.clips.lookup placement.clip).getD []).map fun n => (placement, n)

/-- The flat list of notes, with identities counting up from the given one. -/
def flatten (p : Piece α) (firstId : NoteId) : List (Note α) :=
  p.laidOut.mapIdx fun i c => unpackNote c.1 (firstId + i) c.2

end Piece

end NoteRoll
