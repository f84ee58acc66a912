import NoteRoll.Padding
import NoteRoll.Yaml.Scalar

/-!
# Writing YAML

One entry per line, two blanks of indentation per level. A quoted scalar is a literal block where it
has several lines and these can stand as they are, stands in double quotes where characters have to
be escaped, and in single quotes otherwise. The two line breaks that are characters of their own do
not make several lines, but what follows them is indented like any line.
-/

namespace NoteRoll.Yaml

/-- Blanks in front of a line at a level. -/
def indentation (level : Nat) : String := blanks (2 * level)

/-- Upper-case hexadecimal digits, filled up with zeros on the left. -/
def upperHex (width n : Nat) : List Char := (hexDigits width n).toList.map Char.toUpper

/-- A character in double quotes. -/
def escaped (c : Char) : List Char :=
  let n := c.toNat
  if c == '\x00' then ['\\', '0']
  else if c == '\x07' then ['\\', 'a']
  else if c == '\x08' then ['\\', 'b']
  else if c == '\t' then ['\\', 't']
  else if c == '\n' then ['\\', 'n']
  else if c == '\x0b' then ['\\', 'v']
  else if c == '\x0c' then ['\\', 'f']
  else if c == '\r' then ['\\', 'r']
  else if c == '\x1b' then ['\\', 'e']
  else if c == '"' then ['\\', '"']
  else if c == '\\' then ['\\', '\\']
  else if c == '\u0085' then ['\\', 'N']
  else if c == '\u2028' then ['\\', 'L']
  else if c == '\u2029' then ['\\', 'P']
  else if isPrintable c then [c]
  else if n ≤ 0xff then '\\' :: 'x' :: upperHex 2 n
  else if n ≤ 0xffff then '\\' :: 'u' :: upperHex 4 n
  else '\\' :: 'U' :: upperHex 8 n

/-- A text in double quotes. -/
def doubleQuoted (cs : List Char) : List Char := '"' :: (cs.flatMap escaped ++ ['"'])

/-- Some lines with their indentation, where the text begins in a line or at the beginning of one. An
empty line has no indentation. -/
def indentLines (level : Nat) : (atStart : Bool) → List Char → List Char
  | _, [] => []
  | atStart, c :: cs =>
    if isBreak c then c :: indentLines level true cs
    else (if atStart then (indentation level).toList else []) ++ c :: indentLines level false cs

/-- A text in single quotes, whose further lines stand at a level. -/
def singleQuoted (level : Nat) (cs : List Char) : List Char :=
  let doubled := cs.flatMap fun c => if c == '\'' then ['\'', '\''] else [c]
  let ending := if cs.getLast?.any isBreak then (indentation level).toList else []
  '\'' :: (indentLines level false doubled ++ ending ++ ['\''])

/-- Whether a blank is followed by a line break somewhere. -/
def hasBlankBeforeBreak : List Char → Bool
  | c :: d :: cs => (c == ' ' && isBreak d) || hasBlankBeforeBreak (d :: cs)
  | _ => false

/-- Whether a line break is followed by a blank somewhere. -/
def hasBlankAfterBreak : List Char → Bool
  | c :: d :: cs => (isBreak c && d == ' ') || hasBlankAfterBreak (d :: cs)
  | _ => false

/-- Whether a text can stand in single quotes. -/
def fitsSingle (cs : List Char) : Bool :=
  !cs.contains '\n' && cs.all isPrintable && !hasBlankBeforeBreak cs && !hasBlankAfterBreak cs

/-- Whether the lines of a text can stand as a literal block. -/
def fitsLiteral (cs : List Char) : Bool :=
  cs.contains '\n' && cs.all isPrintable && !hasBlankBeforeBreak cs && cs.getLast? != some ' '

/-- What becomes of the line breaks at the end of a literal block for a text to be read as it is. -/
def chomping (cs : List Char) : Chomping :=
  match cs.reverse with
  | c :: d :: _ => if !isBreak c then .strip else if isBreak d then .keep else .clip
  | [c] => if isBreak c then .keep else .strip
  | [] => .strip

/-- The mark of a chomping. -/
def Chomping.mark : Chomping → List Char
  | .strip => ['-']
  | .clip => []
  | .keep => ['+']

/-- A text as a literal block, whose lines stand at a level. Its mark says whether the lines begin
with a blank or an empty line, and what becomes of the line breaks that end them. -/
def literal (level : Nat) (cs : List Char) : List Char :=
  let indent := if cs.head?.any fun c => c == ' ' || isBreak c then ['2'] else []
  '|' :: (indent ++ (chomping cs).mark ++ '\n' :: indentLines level true cs)

/-- A scalar below a line at a level, with the line break behind it. -/
def scalarLine (level : Nat) (style : Style) (text : String) : String :=
  let cs := text.toList
  match style with
  | .plain => text ++ "\n"
  | .quoted | .literal =>
    if fitsLiteral cs then
      String.ofList (literal (level + 1) cs) ++ (if cs.getLast?.any isBreak then "" else "\n")
    else if fitsSingle cs then String.ofList (singleQuoted (level + 1) cs) ++ "\n"
    else String.ofList (doubleQuoted cs) ++ "\n"

/-- A key, which is a text that stands in a line. -/
def keyText : Yaml → String
  | .scalar .plain text => text
  | .scalar _ text =>
    let cs := text.toList
    String.ofList (if fitsSingle cs && !cs.any isBreak then singleQuoted 0 cs else doubleQuoted cs)
  | _ => ""

mutual

/-- The text of a value behind a colon or a dash of a line at a level. -/
def valueText (level : Nat) : Yaml → String
  | .tagged _ v => valueText level v
  | .scalar style text => " " ++ scalarLine level style text
  | .list [] => " []\n"
  | .list (v :: vs) =>
    "\n" ++ indentation (level + 1) ++ "-" ++ valueText (level + 1) v ++ itemsText (level + 1) vs
  | .table [] => " \x7b\x7d\n"
  | .table ((k, v) :: es) =>
    "\n" ++ indentation (level + 1) ++ keyText k ++ ":" ++ valueText (level + 1) v ++
      entriesText (level + 1) es

/-- The lines of a list's items. -/
def itemsText (level : Nat) : List Yaml → String
  | [] => ""
  | v :: vs => indentation level ++ "-" ++ valueText level v ++ itemsText level vs

/-- The lines of a table's entries. -/
def entriesText (level : Nat) : List (Yaml × Yaml) → String
  | [] => ""
  | (k, v) :: es =>
    indentation level ++ keyText k ++ ":" ++ valueText level v ++ entriesText level es

end

mutual

/-- The chompings of the literal blocks in the text of a value. -/
def blockEnds : Yaml → List Chomping
  | .tagged _ v => blockEnds v
  | .scalar style text =>
    if style ≠ .plain ∧ fitsLiteral text.toList then [chomping text.toList] else []
  | .list vs => itemsBlockEnds vs
  | .table es => entriesBlockEnds es

/-- The chompings of the literal blocks in a list's items. -/
def itemsBlockEnds : List Yaml → List Chomping
  | [] => []
  | v :: vs => blockEnds v ++ itemsBlockEnds vs

/-- The chompings of the literal blocks in a table's entries. -/
def entriesBlockEnds : List (Yaml × Yaml) → List Chomping
  | [] => []
  | (_, v) :: es => blockEnds v ++ entriesBlockEnds es

end

/-- The end mark of a document that holds a value, if it needs one. -/
def endMark (v : Yaml) : String := if (blockEnds v).getLast? = some .keep then "...\n" else ""

/-- The text of a document that holds a value. -/
def documentText (v : Yaml) : String :=
  let text := match v with
    | .table (e :: es) => entriesText 0 (e :: es)
    | v => String.ofList ((valueText 0 v).toList.drop 1)
  text ++ endMark v

end NoteRoll.Yaml
