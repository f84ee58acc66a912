/-!
# Tracks

A track owns notes and names the sound they are played with.
-/

namespace NoteRoll

/-- What a track is known by, such as `t_piano`. -/
abbrev TrackId := String

/-- The family a track's sound belongs to. -/
inductive TrackKind where
  | instrument
  | percussion
  deriving DecidableEq, Repr

/-- An owner of notes. -/
structure Track where
  id : TrackId
  /-- The name shown to the user. -/
  name : String
  kind : TrackKind
  muted : Bool
  deriving DecidableEq, Repr

namespace Track

/-- The tracks a new piece starts with. -/
def defaults : List Track :=
  [⟨"t_piano", "Piano", .instrument, false⟩,
    ⟨"t_bass", "Finger Bass", .instrument, false⟩,
    ⟨"t_kick", "Kick", .percussion, false⟩,
    ⟨"t_snare", "Snare", .percussion, false⟩,
    ⟨"t_hat", "HiHat", .percussion, false⟩]

/-- The track that drawing starts on: the first one, or the piano where there is none. -/
def first (tracks : List Track) : TrackId :=
  match tracks with
  | [] => "t_piano"
  | t :: _ => t.id

/-- The position of a track in a list. -/
def position? (tracks : List Track) (id : TrackId) : Option Nat :=
  tracks.findIdx? fun t => t.id == id

end Track

end NoteRoll
