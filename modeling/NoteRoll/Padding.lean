/-!
# Padding

Texts filled up with blanks to a width, counted in characters.
-/

namespace NoteRoll

/-- Some blanks. -/
def blanks (n : Nat) : String := String.ofList (List.replicate n ' ')

/-- A text filled up with blanks on the right. -/
def padRight (width : Nat) (text : String) : String := text ++ blanks (width - text.length)

/-- A text filled up with blanks on the left. -/
def padLeft (width : Nat) (text : String) : String := blanks (width - text.length) ++ text

end NoteRoll
