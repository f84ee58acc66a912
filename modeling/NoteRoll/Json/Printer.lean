import NoteRoll.Json.Basic
import NoteRoll.Padding

/-!
# Writing JSON

The layout of stored pieces: two blanks of indentation per level, one item or entry per line, and
empty lists and tables closed at once. In strings only quotes, backslashes and control characters
are escaped.
-/

namespace NoteRoll.Json

/-- A character inside a string. -/
def escaped (c : Char) : List Char :=
  if c = '"' then ['\\', '"']
  else if c = '\\' then ['\\', '\\']
  else if c = '\x08' then ['\\', 'b']
  else if c = '\x0c' then ['\\', 'f']
  else if c = '\n' then ['\\', 'n']
  else if c = '\r' then ['\\', 'r']
  else if c = '\t' then ['\\', 't']
  else if c.toNat < 0x20 then '\\' :: 'u' :: (hexDigits 4 c.toNat).toList
  else [c]

/-- A string with its quotes. -/
def quoted (s : String) : String :=
  "\"" ++ String.ofList (s.toList.flatMap escaped) ++ "\""

/-- The beginning of a line at a level. -/
def newLine (level : Nat) : String := "\n" ++ blanks (2 * level)

mutual

/-- The text of a value that starts at a level. -/
def prettyAt (level : Nat) : Json → String
  | .null => "null"
  | .flag b => if b then "true" else "false"
  | .number l => l.text
  | .text s => quoted s
  | .list [] => "[]"
  | .list (v :: vs) =>
    "[" ++ newLine (level + 1) ++ prettyAt (level + 1) v ++ itemsAt (level + 1) vs ++
      newLine level ++ "]"
  | .table [] => "\x7b\x7d"
  | .table ((k, v) :: es) =>
    "\x7b" ++ newLine (level + 1) ++ quoted k ++ ": " ++ prettyAt (level + 1) v ++
      entriesAt (level + 1) es ++ newLine level ++ "\x7d"

/-- The items behind the first one. -/
def itemsAt (level : Nat) : List Json → String
  | [] => ""
  | v :: vs => "," ++ newLine level ++ prettyAt level v ++ itemsAt level vs

/-- The entries behind the first one. -/
def entriesAt (level : Nat) : List (String × Json) → String
  | [] => ""
  | (k, v) :: es =>
    "," ++ newLine level ++ quoted k ++ ": " ++ prettyAt level v ++ entriesAt level es

end

/-- The text of a value over several lines. -/
def pretty (j : Json) : String := prettyAt 0 j

mutual

/-- The text of a value without blanks. -/
def compact : Json → String
  | .null => "null"
  | .flag b => if b then "true" else "false"
  | .number l => l.text
  | .text s => quoted s
  | .list [] => "[]"
  | .list (v :: vs) => "[" ++ compact v ++ compactItems vs
  | .table [] => "\x7b\x7d"
  | .table ((k, v) :: es) => "\x7b" ++ quoted k ++ ":" ++ compact v ++ compactEntries es

/-- The items behind the first one, with the closing bracket. -/
def compactItems : List Json → String
  | [] => "]"
  | v :: vs => "," ++ compact v ++ compactItems vs

/-- The entries behind the first one, with the closing brace. -/
def compactEntries : List (String × Json) → String
  | [] => "\x7d"
  | (k, v) :: es => "," ++ quoted k ++ ":" ++ compact v ++ compactEntries es

end

end NoteRoll.Json
