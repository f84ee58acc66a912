import NoteRoll.Yaml.Cursor

/-!
# YAML scalars

Plain, quoted and block scalars at the front of a text. Each reader answers with the scalar's text
and what is left, or with nothing where the notation is broken. Texts that grow are kept with the last
character first.

The hard case is a scalar over several lines. A single line break becomes a blank, each further one
stays a line break, and the blanks around line breaks are dropped; only a literal block keeps its
lines. The two breaks that are characters of their own always stay.
-/

namespace NoteRoll.Yaml

/-! ## Gaps -/

/-- The blanks and line breaks between two other characters of a scalar. -/
structure Gap where
  /-- The blanks in front of any line break. -/
  blanks : List Char := []
  /-- The first line break. -/
  first : Option Char := none
  /-- A line break stands in front that counts for nothing. -/
  escaped : Bool := false
  /-- The line breaks behind that. -/
  more : List Char := []

namespace Gap

/-- Whether there is a line break. -/
def isBroken (g : Gap) : Bool := g.first.isSome || g.escaped

/-- Whether there is nothing. -/
def isEmpty (g : Gap) : Bool := g.blanks.isEmpty && !g.isBroken

/-- The gap with a blank behind it. -/
def addBlank (g : Gap) (c : Char) : Gap := if g.isBroken then g else { g with blanks := c :: g.blanks }

/-- The gap with a line break behind it. -/
def addBreak (g : Gap) (c : Char) : Gap :=
  if g.isBroken then { g with more := c :: g.more } else { first := some c }

/-- What the gap stands for. -/
def text (g : Gap) : List Char :=
  match g.first with
  | some '\n' => if g.more.isEmpty then [' '] else g.more
  | some c => g.more ++ [c]
  | none => if g.escaped then g.more else g.blanks

end Gap

/-! ## Quoted scalars -/

/-- Characters that stand for others behind a backslash. -/
def escapes : List (Char × Char) :=
  [('0', '\x00'), ('a', '\x07'), ('b', '\x08'), ('t', '\t'), ('\t', '\t'), ('n', '\n'),
    ('v', '\x0b'), ('f', '\x0c'), ('r', '\r'), ('e', '\x1b'), (' ', ' '), ('"', '"'), ('/', '/'),
    ('\\', '\\'), ('N', '\u0085'), ('_', '\u00a0'), ('L', '\u2028'), ('P', '\u2029')]

/-- The number of digits that an escape by code point has. -/
def escapeDigits? (c : Char) : Option Nat :=
  if c == 'x' then some 2 else if c == 'u' then some 4 else if c == 'U' then some 8 else none

/-- Where in a quoted scalar the reading stands. -/
inductive Phase where
  /-- Behind a gap, which may be empty. -/
  | text (gap : Gap)
  /-- Behind a backslash. -/
  | escape
  /-- Before some digits of an escape. -/
  | hex (left value : Nat)

/-- Reads a quoted scalar behind its opening quote, character by character. -/
def readQuotedFrom (double : Bool) : Phase → (done : List Char) → Place → List Char →
    Option (String × Cursor)
  | _, _, _, [] => none
  | .hex left value, done, p, c :: cs =>
    match hexValue? c with
    | none => none
    | some digit =>
      let value := 16 * value + digit
      if 1 < left then readQuotedFrom double (.hex (left - 1) value) done (p.after c) cs
      else if value.isValidChar then
        readQuotedFrom double (.text {}) (Char.ofNat value :: done) (p.after c) cs
      else none
  | .escape, done, p, c :: cs =>
    if isBreak c then readQuotedFrom double (.text { escaped := true }) done (p.after c) cs
    else match escapeDigits? c, escapes.lookup c with
      | some n, _ => readQuotedFrom double (.hex n 0) done (p.after c) cs
      | none, some e => readQuotedFrom double (.text {}) (e :: done) (p.after c) cs
      | none, none => none
  | .text gap, done, p, c :: cs =>
    if isBlank c then readQuotedFrom double (.text (gap.addBlank c)) done (p.after c) cs
    else if isBreak c then readQuotedFrom double (.text (gap.addBreak c)) done (p.after c) cs
    else if p.column = 0 && (documentMark? (c :: cs)).isSome then none
    else
      let done := gap.text ++ done
      let ended : Option (String × Cursor) := some (String.ofList done.reverse, ⟨p.after c, cs⟩)
      if double then
        if c == '"' then ended
        else if c == '\\' then readQuotedFrom double .escape done (p.after c) cs
        else readQuotedFrom double (.text {}) (c :: done) (p.after c) cs
      else if c == '\'' then
        match cs with
        | '\'' :: cs => readQuotedFrom double (.text {}) ('\'' :: done) ((p.after c).after c) cs
        | _ => ended
      else readQuotedFrom double (.text {}) (c :: done) (p.after c) cs

/-- Reads a quoted scalar behind its opening quote. -/
def readQuoted (double : Bool) (x : Cursor) : Option (String × Cursor) :=
  readQuotedFrom double (.text {}) [] x.place x.rest

/-! ## Plain scalars -/

/-- Reads a plain scalar whose further lines are indented by `least`, character by character. It ends
with its text: in front of a comment, a colon before a gap, a mark of a document, a line that is not
indented or, within brackets, one of their marks. Also answers with the gap behind it. -/
def readPlainFrom (inBrackets : Bool) (least : Nat) : Gap → (done : List Char) → Place → List Char →
    Option (List Char × Gap × Cursor)
  | gap, done, p, [] => some (done, gap, ⟨p, []⟩)
  | gap, done, p, c :: cs =>
    if isBlank c then
      if c == '\t' && gap.isBroken && p.column < least then none
      else readPlainFrom inBrackets least (gap.addBlank c) done (p.after c) cs
    else if isBreak c then readPlainFrom inBrackets least (gap.addBreak c) done (p.after c) cs
    else if !gap.isEmpty && (c == '#' || (!inBrackets && p.column < least) ||
        (p.column = 0 && (documentMark? (c :: cs)).isSome)) then
      some (done, gap, ⟨p, c :: cs⟩)
    else if inBrackets && c == ':' && cs.head?.any fun d => d == '?' || isBracketMark d then none
    else if (c == ':' && atGap cs) || (inBrackets && isBracketMark c) then
      some (done, gap, ⟨p, c :: cs⟩)
    else readPlainFrom inBrackets least {} (c :: (gap.text ++ done)) (p.after c) cs

/-- Reads a plain scalar; also says whether a line break follows it. -/
def readPlain (inBrackets : Bool) (least : Nat) (x : Cursor) : Option (String × Bool × Cursor) :=
  (readPlainFrom inBrackets least {} [] x.place x.rest).map fun (text, gap, rest) =>
    (String.ofList text.reverse, gap.isBroken, rest)

/-! ## Block scalars -/

/-- What becomes of the line breaks at the end of a block scalar. -/
inductive Chomping where
  | strip
  | clip
  | keep
  deriving DecidableEq, Repr

/-- The chomping that a mark asks for. -/
def Chomping.ofChar? (c : Char) : Option Chomping :=
  if c == '-' then some .strip else if c == '+' then some .keep else none

/-- The header of a block scalar: how its end is chomped, its indentation or zero if that is not
given, and the number of its characters. -/
def blockHeader? (cs : List Char) : Option (Chomping × Nat × Nat) :=
  let chomping? : Option Char → Option Chomping := fun c => c.bind Chomping.ofChar?
  let indent? : Option Char → Option Nat := fun c =>
    (c.filter isDigit).map fun c => c.toNat - '0'.toNat
  let header := match chomping? cs.head?, indent? cs.head? with
    | some chomping, _ => (chomping, indent? cs[1]?, 1)
    | none, some n => ((chomping? cs[1]?).getD .clip, some n, if (chomping? cs[1]?).isSome then 1 else 0)
    | none, none => (Chomping.clip, none, 0)
  match header with
  | (_, some 0, _) => none
  | (chomping, some n, count) => some (chomping, n, count + 1)
  | (chomping, none, count) => some (chomping, 0, count)

/-- Goes on past the indentation of lines and past empty lines; an indentation of zero is not yet
known. Answers with the line breaks and the widest indentation. -/
def skipIndentation (indent : Nat) : (breaks : List Char) → (widest : Nat) → Place → List Char →
    Option (List Char × Nat × Cursor)
  | breaks, widest, p, [] => some (breaks, max widest p.column, ⟨p, []⟩)
  | breaks, widest, p, c :: cs =>
    let isWithin := indent = 0 || p.column < indent
    if c == ' ' && isWithin then skipIndentation indent breaks widest (p.after c) cs
    else if c == '\t' && isWithin then none
    else if isBreak c then
      skipIndentation indent (c :: breaks) (max widest p.column) (p.after c) cs
    else some (breaks, max widest p.column, ⟨p, c :: cs⟩)

/-- A block scalar as far as it is read. -/
structure BlockText where
  done : List Char := []
  /-- The line break behind the last line. -/
  first : Option Char := none
  /-- The line breaks behind that. -/
  more : List Char := []
  /-- Whether the last line begins with a blank. -/
  startsBlank : Bool := false

/-- The text with a further line. A line break between two lines of a folded scalar becomes a blank,
unless one of them begins with a blank. -/
def BlockText.addLine (b : BlockText) (isLiteral : Bool) (line : List Char) : BlockText :=
  let startsBlank := line.head?.any isBlank
  let gap :=
    if !isLiteral && b.first = some '\n' && !b.startsBlank && !startsBlank then
      if b.more.isEmpty then [' '] else b.more
    else b.more ++ b.first.toList
  { done := line.reverse ++ (gap ++ b.done), startsBlank }

/-- The whole text, with its end chomped. -/
def BlockText.chomped (b : BlockText) : Chomping → String
  | .strip => String.ofList b.done.reverse
  | .clip => String.ofList (b.first.toList ++ b.done).reverse
  | .keep => String.ofList (b.more ++ b.first.toList ++ b.done).reverse

/-- Reads the lines of a block scalar that stand at its indentation. -/
def readBlockLines (isLiteral : Bool) (indent : Nat) : (fuel : Nat) → BlockText → Cursor →
    Option (BlockText × Cursor)
  | 0, b, x => some (b, x)
  | fuel + 1, b, x =>
    if x.place.column ≠ indent ∨ x.rest = [] then some (b, x) else
      let (line, x) := x.span (!isBreak ·)
      let first := x.rest.head?
      let x := x.drop 1
      match skipIndentation indent [] 0 x.place x.rest with
      | none => none
      | some (more, _, x) =>
        readBlockLines isLiteral indent fuel { b.addLine isLiteral line with first, more } x

/-- Reads a block scalar behind its mark, below a node that is indented by less than `least`. -/
def readBlockScalar (isLiteral : Bool) (least : Nat) (x : Cursor) : Option (String × Cursor) := do
  let (chomping, given, count) ← blockHeader? x.rest
  let x ← (x.drop count).endLine?
  let indent := if given = 0 then 0 else (least - 1) + given
  let (more, widest, x) ← skipIndentation indent [] 0 x.place x.rest
  let indent := if indent = 0 then max widest (max least 1) else indent
  let (text, x) ← readBlockLines isLiteral indent (x.rest.length + 1) { more } x
  return (text.chomped chomping, x)

end NoteRoll.Yaml
