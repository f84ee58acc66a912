import NoteRoll.Session

/-!
# Actions and their keys

The things that a user does by keyboard, and which key stands for which.
-/

namespace NoteRoll

/-- What a key does. -/
inductive Action (α : Type) where
  | quit
  | togglePlayback
  | rewind
  /-- Scrolls the view by beats. -/
  | scrollBeats (beats : α)
  /-- Scrolls the view by semitones. -/
  | scrollPitch (semitones : Int)
  | undo
  | redo
  | deleteSelected
  | copy
  /-- Pastes at the playhead. -/
  | paste
  | nextTrack
  | toggleMute
  | toggleHidden
  | setTool (tool : Tool)
  | setSnap (quantum : α)
  | adjustTempo (change : α)
  /-- Writes the piece to the opened file. -/
  | write
  /-- Abandons what the pointer is doing. -/
  | cancel

/-- A key of the keyboard. -/
inductive Key where
  | char (c : Char)
  | home
  | left
  | right
  | up
  | down
  | pageUp
  | pageDown
  | delete
  | backspace
  | tab
  | escape
  /-- Any other key. -/
  | other
  deriving DecidableEq, Repr

namespace Action

variable {α : Type} [Scalar α]

/-- The change of tempo of one key press. -/
def tempoStep : α := 5.0

/-- What a key does while control is held. -/
def ofControlKey? : Key → Option (Action α)
  | .char 'c' | .char 'q' => some .quit
  | .char 'z' => some .undo
  | .char 'y' => some .redo
  | .char 's' => some .write
  | _ => none

/-- What a character does. -/
def ofChar? (c : Char) : Option (Action α) :=
  match c with
  | 'q' => some .quit
  | ' ' => some .togglePlayback
  | 'u' => some .undo
  | 'r' => some .redo
  | 'x' => some .deleteSelected
  | 'c' => some .copy
  | 'v' => some .paste
  | 'm' => some .toggleMute
  | 'h' => some .toggleHidden
  | 'd' => some (.setTool .draw)
  | 's' => some (.setTool .select)
  | 'e' => some (.setTool .erase)
  | '+' | '=' => some (.adjustTempo tempoStep)
  | '-' => some (.adjustTempo (-tempoStep))
  | 'w' => some .write
  | _ =>
    if '1' ≤ c ∧ c ≤ '7' then
      ((Snap.choices (α := α))[c.toNat - '1'.toNat]?).map fun choice => .setSnap choice.2
    else none

/-- What a key does while control is not held. -/
def ofPlainKey? : Key → Option (Action α)
  | .char c => ofChar? c
  | .home => some .rewind
  | .left => some (.scrollBeats (-1.0))
  | .right => some (.scrollBeats 1.0)
  | .up => some (.scrollPitch 1)
  | .down => some (.scrollPitch (-1))
  | .pageUp => some (.scrollPitch 12)
  | .pageDown => some (.scrollPitch (-12))
  | .delete | .backspace => some .deleteSelected
  | .tab => some .nextTrack
  | .escape => some .cancel
  | .other => none

/-- What a key does, if anything. -/
def ofKey? (key : Key) (control : Bool) : Option (Action α) :=
  if control then ofControlKey? key else ofPlainKey? key

end Action

end NoteRoll
