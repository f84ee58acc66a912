import NoteRoll.Piece.Format

/-!
# Compose services

A compose service turns a prompt into a piece and a piece into a MIDI file. Here is what may go wrong
with it and how its answer to a prompt is read.
-/

namespace NoteRoll

/-- Why a compose service gave nothing. -/
inductive ComposeError (α : Type) where
  /-- The request never got an answer. -/
  | transport (reason : String)
  /-- The answer had a status that is no success. -/
  | status (code : Nat) (body : String)
  /-- The answer was a message of the service about a failure of its own. -/
  | service (reason : String)
  /-- The answer was no piece. -/
  | invalidResponse (cause : ImportError α)

/-- A compose service. -/
structure ComposeService (α : Type) where
  generate : (prompt : String) → Except (ComposeError α) (Piece α)
  renderMidi : Piece α → Except (ComposeError α) (List Nat)

namespace ComposeError

variable {α : Type} [Scalar α] [NumberText α]

/-- What the user is told. -/
def message : ComposeError α → String
  | .transport reason => "request failed: " ++ reason
  | .status code body => "service returned HTTP " ++ toString code ++ ": " ++ body
  | .service reason => "service error: " ++ reason
  | .invalidResponse cause => "invalid response: " ++ cause.message

end ComposeError

/-- Reads the answer to a prompt: a text under `error` is a failure of the service, and anything else
has to be a piece. -/
def Piece.ofAnswer {α : Type} [Scalar α] [NumberText α] (answer : Json) :
    Except (ComposeError α) (Piece α) :=
  match (answer.get? "error").bind Json.text? with
  | some reason => .error (.service reason)
  | none =>
    match Piece.ofValue answer with
    | .ok piece => .ok piece
    | .error cause => .error (.invalidResponse cause)

end NoteRoll
