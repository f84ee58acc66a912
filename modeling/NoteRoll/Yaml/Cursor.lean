import NoteRoll.Yaml.Basic

/-!
# Places in a text

The notation of YAML depends on lines and columns, so what is left of a text goes together with the
place where it begins.
-/

namespace NoteRoll.Yaml

/-- A place in a text: the bytes and the lines before it, and the characters before it in its line. -/
structure Place where
  bytes : Nat := 0
  line : Nat := 0
  column : Nat := 0
  deriving DecidableEq, Repr

/-- The place behind a character. -/
def Place.after (p : Place) (c : Char) : Place :=
  if isBreak c then ⟨p.bytes + c.utf8Size, p.line + 1, 0⟩
  else ⟨p.bytes + c.utf8Size, p.line, p.column + 1⟩

/-- What is left of a text, and where it begins. -/
structure Cursor where
  place : Place
  rest : List Char

namespace Cursor

/-- Goes on by some characters. -/
def drop : (count : Nat) → Cursor → Cursor
  | 0, x => x
  | _, ⟨p, []⟩ => ⟨p, []⟩
  | n + 1, ⟨p, c :: cs⟩ => drop n ⟨p.after c, cs⟩

/-- The characters at the front that have a property, and what is left behind them. -/
def span (f : Char → Bool) (x : Cursor) : List Char × Cursor :=
  let taken := x.rest.takeWhile f
  (taken, x.drop taken.length)

/-- Goes on past the characters at the front that have a property. -/
def skip (f : Char → Bool) (x : Cursor) : Cursor := (x.span f).2

/-- Goes on past blanks and a comment, if that is all that the line still holds, and past its line
break. -/
def endLine? (x : Cursor) : Option Cursor :=
  let x := x.skip isBlank
  let x := if x.rest.head? = some '#' then x.skip (!isBreak ·) else x
  match x.rest with
  | [] => some x
  | c :: _ => if isBreak c then some (x.drop 1) else none

end Cursor

/-- Marks that stand alone at the beginning of a line, where a document begins or ends. -/
inductive DocumentMark where
  | start
  | stop
  deriving DecidableEq, Repr

/-- The mark at the front of a text. -/
def documentMark? : List Char → Option DocumentMark
  | '-' :: '-' :: '-' :: cs => if atGap cs then some .start else none
  | '.' :: '.' :: '.' :: cs => if atGap cs then some .stop else none
  | _ => none

end NoteRoll.Yaml
