import NoteRoll.Yaml.Scalar

/-!
# YAML tokens

A text as a list of tokens, where indentation has become tokens that begin and end blocks. The text
is gone through once, by steps of one token.

The hard case is a key. Whether a scalar, or anything else, is one is known only at the colon behind
it. So every place where a key may begin is remembered, one for each open bracket, and at a colon the
token that announces the key is put in there. A key stands in one line and has at most 1024 bytes; in
a block, what stands where keys stand has to be one.
-/

namespace NoteRoll.Yaml

/-- A token. -/
inductive Token where
  | version
  /-- Gives a short form to the names of types that begin with a text. -/
  | shortTag (short long : String)
  | documentStart
  | documentStop
  /-- The first item of a list of lines. -/
  | itemsBegin
  /-- The first entry of a table of lines. -/
  | entriesBegin
  /-- The end of a list or a table of lines. -/
  | blockEnd
  | listOpen
  | listClose
  | tableOpen
  | tableClose
  | comma
  | dash
  | key
  | value
  | anchor (name : String)
  | alias (name : String)
  /-- The name of a type, the beginning of which may be a short form. -/
  | tag (short name : String)
  | scalar (style : Style) (text : String)
  deriving DecidableEq, Repr

/-- A place where a key may begin. -/
structure PossibleKey where
  place : Place
  /-- The number of tokens before it. -/
  index : Nat
  /-- Whether nothing but a key can be here. -/
  isRequired : Bool

/-- A text of which some tokens are read. -/
structure Lexer where
  cursor : Cursor
  tokens : Array Token := #[]
  /-- The column of the innermost block, below zero where there is none. -/
  indent : Int := -1
  /-- The columns of the blocks around it. -/
  outer : List Int := []
  /-- Where a key may have begun: in the innermost bracket, in those around it, and outside. -/
  keys : List (Option PossibleKey) := [none]
  /-- Whether a key may begin here. -/
  keyAllowed : Bool := true

namespace Lexer

/-- Whether the text stands within brackets. -/
def inBrackets (l : Lexer) : Bool := 1 < l.keys.length

/-- The column that the text stands at. -/
def column (l : Lexer) : Nat := l.cursor.place.column

/-- The least indentation of what is below the innermost block. -/
def least (l : Lexer) : Nat := (l.indent + 1).toNat

/-- Adds a token. -/
def push (l : Lexer) (t : Token) : Lexer := { l with tokens := l.tokens.push t }

/-- Adds a token for some characters. -/
def take (l : Lexer) (count : Nat) (t : Token) : Lexer :=
  { l with cursor := l.cursor.drop count, tokens := l.tokens.push t }

/-! ## Between tokens -/

/-- Goes on past blanks, line breaks and comments. Tabs are no indentation, so they are passed over
only where no key may begin. Outside of brackets a new line may begin with a key. -/
def skipSpaceFrom (inBrackets : Bool) : (inComment keyAllowed : Bool) → Place → List Char →
    Bool × Cursor
  | _, keyAllowed, p, [] => (keyAllowed, ⟨p, []⟩)
  | inComment, keyAllowed, p, c :: cs =>
    if isBreak c then skipSpaceFrom inBrackets false (keyAllowed || !inBrackets) (p.after c) cs
    else if inComment || c == '#' then skipSpaceFrom inBrackets true keyAllowed (p.after c) cs
    else if c == ' ' || (c == '\t' && (inBrackets || !keyAllowed)) ||
        (c == '\ufeff' && p.column = 0) then
      skipSpaceFrom inBrackets false keyAllowed (p.after c) cs
    else (keyAllowed, ⟨p, c :: cs⟩)

/-- Goes on to the next token. -/
def skipSpace (l : Lexer) : Lexer :=
  let (keyAllowed, cursor) :=
    skipSpaceFrom l.inBrackets false l.keyAllowed l.cursor.place l.cursor.rest
  { l with cursor, keyAllowed }

/-! ## Blocks -/

/-- Ends the blocks that are indented by more than a column, where the columns of blocks are given
from the innermost one outwards. -/
def closeFrom (column : Int) : (indent : Int) → (outer : List Int) → Array Token →
    Int × List Int × Array Token
  | indent, [], tokens => (indent, [], tokens)
  | indent, next :: outer, tokens =>
    if column < indent then closeFrom column next outer (tokens.push .blockEnd)
    else (indent, next :: outer, tokens)

/-- Ends the blocks that are indented by more than a column. -/
def closeBlocks (l : Lexer) (column : Int) : Lexer :=
  if l.inBrackets then l else
    let (indent, outer, tokens) := closeFrom column l.indent l.outer l.tokens
    { l with indent, outer, tokens }

/-- Begins a block at a column, unless one is there already. Its token stands behind as many tokens
as `index` says. -/
def openBlock (l : Lexer) (column index : Nat) (t : Token) : Lexer :=
  if l.inBrackets || (column : Int) ≤ l.indent then l
  else { l with
    indent := column, outer := l.indent :: l.outer, tokens := l.tokens.insertIdxIfInBounds index t }

/-! ## Keys -/

/-- Gives up a place where a key may have begun, if that is possible. -/
def giveUp (key : Option PossibleKey) : Option (Option PossibleKey) :=
  if key.any (·.isRequired) then none else some none

/-- Gives up the innermost place where a key may have begun. -/
def dropKey? (l : Lexer) : Option Lexer :=
  match l.keys with
  | key :: keys => (giveUp key).map fun key => { l with keys := key :: keys }
  | [] => some l

/-- Remembers that a key may begin here. -/
def saveKey? (l : Lexer) : Option Lexer :=
  if !l.keyAllowed then some l else
    let key : PossibleKey :=
      ⟨l.cursor.place, l.tokens.size, !l.inBrackets && l.indent == (l.column : Int)⟩
    l.dropKey?.map fun l => { l with keys := some key :: l.keys.drop 1 }

/-- The most bytes that a key may have. -/
def maxKeyBytes : Nat := 1024

/-- Whether a colon at a place is too far away to end the key. -/
def isFarFrom (here : Place) (key : PossibleKey) : Bool :=
  key.place.line < here.line || key.place.bytes + maxKeyBytes < here.bytes

/-- Gives up all places that are too far away for a key. -/
def dropFarKeys? (l : Lexer) : Option Lexer :=
  let dropFar (key : Option PossibleKey) : Option (Option PossibleKey) :=
    if key.any (isFarFrom l.cursor.place) then giveUp key else some key
  (l.keys.mapM dropFar).map fun keys => { l with keys }

/-! ## One token -/

/-- A bracket that opens. -/
def openBracket? (l : Lexer) (t : Token) : Option Lexer :=
  l.saveKey?.map fun l => { l.take 1 t with keys := none :: l.keys, keyAllowed := true }

/-- A bracket that closes. -/
def closeBracket? (l : Lexer) (t : Token) : Option Lexer :=
  l.dropKey?.map fun l =>
    { l.take 1 t with
      keys := if l.inBrackets then l.keys.drop 1 else l.keys, keyAllowed := false }

/-- A comma. -/
def comma? (l : Lexer) : Option Lexer :=
  l.dropKey?.map fun l => { l.take 1 .comma with keyAllowed := true }

/-- The dash of an item. -/
def dash? (l : Lexer) : Option Lexer :=
  if !l.inBrackets && !l.keyAllowed then none else
    (l.openBlock l.column l.tokens.size .itemsBegin).dropKey?.map fun l =>
      { l.take 1 .dash with keyAllowed := true }

/-- The question mark in front of a key. -/
def question? (l : Lexer) : Option Lexer :=
  if !l.inBrackets && !l.keyAllowed then none else
    (l.openBlock l.column l.tokens.size .entriesBegin).dropKey?.map fun l =>
      { l.take 1 .key with keyAllowed := !l.inBrackets }

/-- The colon behind a key, or behind nothing. -/
def colon? (l : Lexer) : Option Lexer :=
  match l.keys with
  | some key :: keys =>
    let l := { l with tokens := l.tokens.insertIdxIfInBounds key.index .key, keys := none :: keys }
    some { (l.openBlock key.place.column key.index .entriesBegin).take 1 .value with
      keyAllowed := false }
  | _ =>
    if !l.inBrackets && !l.keyAllowed then none else
      some { (l.openBlock l.column l.tokens.size .entriesBegin).take 1 .value with
        keyAllowed := !l.inBrackets }

/-- The mark of a document. -/
def document? (l : Lexer) (mark : DocumentMark) : Option Lexer :=
  (l.closeBlocks (-1)).dropKey?.map fun l =>
    { l.take 3 (if mark = .start then .documentStart else .documentStop) with keyAllowed := false }

/-- Characters of names. -/
def isNameChar (c : Char) : Bool :=
  isDigit c || ('a' ≤ c && c ≤ 'z') || ('A' ≤ c && c ≤ 'Z') || c == '_' || c == '-'

/-- An anchor or an alias. -/
def reference? (l : Lexer) (token : String → Token) : Option Lexer := do
  let l ← l.saveKey?
  let (name, x) := (l.cursor.drop 1).span isNameChar
  let isEnded := atGap x.rest || x.rest.head?.any (['?', ':', ',', ']', '\x7d', '%', '@', '\x60'].contains ·)
  if name.isEmpty || !isEnded then none else
    some { l.push (token (String.ofList name)) with cursor := x, keyAllowed := false }

/-- Characters of the names of types. Within angles some more are taken. -/
def isTagChar (inAngles : Bool) (c : Char) : Bool :=
  isNameChar c ||
    [';', '/', '?', ':', '@', '&', '=', '+', '$', '.', '%', '!', '~', '*', '\'', '(', ')'].contains c ||
    (inAngles && [',', '[', ']'].contains c)

/-- The short form that a name of a type may begin with: an exclamation mark, perhaps with a name and
another one behind it. -/
def shortForm (x : Cursor) : List Char × Cursor :=
  let (name, y) := (x.drop 1).span isNameChar
  if y.rest.head? = some '!' then ('!' :: name ++ ['!'], y.drop 1) else ('!' :: name, y)

/-- The name of a type at the front of a text. -/
def readTag? (x : Cursor) : Option (Token × Cursor) :=
  if x.rest[1]? = some '<' then
    let (name, x) := (x.drop 2).span (isTagChar true)
    if name.isEmpty || x.rest.head? ≠ some '>' then none
    else some (.tag "" (String.ofList name), x.drop 1)
  else
    let (short, x) := shortForm x
    let (name, x) := x.span (isTagChar false)
    if 1 < short.length ∧ short.getLast? = some '!' then
      if name.isEmpty then none else some (.tag (String.ofList short) (String.ofList name), x)
    else if short.length = 1 ∧ name.isEmpty then some (.tag "" "!", x)
    else some (.tag "!" (String.ofList (short.drop 1 ++ name)), x)

/-- The name of a type. -/
def tag? (l : Lexer) : Option Lexer := do
  let l ← l.saveKey?
  let (t, x) ← readTag? l.cursor
  if atGap x.rest || (l.inBrackets && x.rest.head? = some ',') then
    some { l.push t with cursor := x, keyAllowed := false }
  else none

/-- The most digits that a part of a version may have. -/
def maxVersionDigits : Nat := 9

/-- A part of a version. -/
def readVersionPart? (x : Cursor) : Option (Nat × Cursor) :=
  let (digits, x) := x.span isDigit
  if digits.length ≤ maxVersionDigits then (numeral? 10 digits).map fun n => (n, x) else none

/-- The version, of which two are known. -/
def readVersion? (x : Cursor) : Option (Token × Cursor) := do
  let (major, x) ← readVersionPart? x
  let (minor, x) ← if x.rest.head? = some '.' then readVersionPart? (x.drop 1) else none
  if major = 1 ∧ (minor = 1 ∨ minor = 2) then some (.version, x) else none

/-- A short form of types, and what it stands for. -/
def readShortTag? (x : Cursor) : Option (Token × Cursor) :=
  if x.rest.head? ≠ some '!' then none else
    let (short, x) := shortForm x
    let (long, y) := (x.skip isBlank).span (isTagChar true)
    if (short.length = 1 ∨ short.getLast? = some '!') ∧ x.rest.head?.any isBlank ∧
        !long.isEmpty ∧ atGap y.rest then
      some (.shortTag (String.ofList short) (String.ofList long), y)
    else none

/-- What a directive says, and what is left of its line. -/
def readDirective? (x : Cursor) : Option (Token × Cursor) :=
  let (name, x) := (x.drop 1).span isNameChar
  if !atGap x.rest then none
  else if name = "YAML".toList then readVersion? (x.skip isBlank)
  else if name = "TAG".toList then readShortTag? (x.skip isBlank)
  else none

/-- A directive, with its line. -/
def directive? (l : Lexer) : Option Lexer := do
  let l ← (l.closeBlocks (-1)).dropKey?
  let (t, x) ← readDirective? l.cursor
  let x ← x.endLine?
  return { l.push t with cursor := x, keyAllowed := false }

/-- A block scalar. -/
def block? (l : Lexer) (isLiteral : Bool) : Option Lexer := do
  let l ← l.dropKey?
  let (text, x) ← readBlockScalar isLiteral l.least (l.cursor.drop 1)
  return { l.push (.scalar (if isLiteral then .literal else .quoted) text) with
    cursor := x, keyAllowed := true }

/-- A quoted scalar. -/
def quoted? (l : Lexer) (double : Bool) : Option Lexer := do
  let l ← l.saveKey?
  let (text, x) ← readQuoted double (l.cursor.drop 1)
  return { l.push (.scalar .quoted text) with cursor := x, keyAllowed := false }

/-- A plain scalar. -/
def plain? (l : Lexer) : Option Lexer := do
  let l ← l.saveKey?
  let (text, isBroken, x) ← readPlain l.inBrackets l.least l.cursor
  return { l.push (.scalar .plain text) with cursor := x, keyAllowed := isBroken }

/-- The token at the front of the text. -/
def token? (l : Lexer) : Option Lexer :=
  match l.cursor.rest with
  | [] => some l
  | c :: cs =>
    let l := l.closeBlocks l.column
    let canMark := l.inBrackets || atGap cs
    match (if l.column = 0 then documentMark? (c :: cs) else none) with
    | some mark => l.document? mark
    | none =>
      if l.column = 0 && c == '%' then l.directive?
      else if c == '[' then l.openBracket? .listOpen
      else if c == '\x7b' then l.openBracket? .tableOpen
      else if c == ']' then l.closeBracket? .listClose
      else if c == '\x7d' then l.closeBracket? .tableClose
      else if c == ',' then l.comma?
      else if c == '-' && atGap cs then l.dash?
      else if c == '?' && canMark then l.question?
      else if c == ':' && canMark then l.colon?
      else if c == '*' then l.reference? .alias
      else if c == '&' then l.reference? .anchor
      else if c == '!' then l.tag?
      else if (c == '|' || c == '>') && !l.inBrackets then l.block? (c == '|')
      else if c == '\'' || c == '"' then l.quoted? (c == '"')
      else if startsPlain l.inBrackets (c :: cs) then l.plain?
      else none

/-- Reads tokens to the end of the text. Each takes a character at least, which is what `fuel`
counts. -/
def run? : (fuel : Nat) → Lexer → Option (Array Token)
  | 0, _ => none
  | fuel + 1, l => do
    let l ← l.skipSpace.dropFarKeys?
    if l.cursor.rest.isEmpty then
      let l ← (l.closeBlocks (-1)).dropKey?
      return l.tokens
    else run? fuel (← l.token?)

end Lexer

/-- The tokens of a text with one kind of line break. -/
def Token.ofText? (cs : List Char) : Option (List Token) :=
  (Lexer.run? (cs.length + 1) { cursor := ⟨{}, cs⟩ }).map Array.toList

end NoteRoll.Yaml
