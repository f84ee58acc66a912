import NoteRoll.Decimal.Reader

/-!
# YAML values

The part of YAML that settings are written in: scalars, lists and tables. A plain scalar has no type
of its own; whoever asks for a number, a text or an optional text decides what it means. A quoted
scalar is always a text. So a text can be written plainly only if nobody would take it for anything
else, which is what `Yaml.ofString` looks at.
-/

namespace NoteRoll

/-- How a scalar stands in a text. -/
inductive Yaml.Style where
  | plain
  | quoted
  /-- A block of lines that are taken as they are. -/
  | literal
  deriving DecidableEq, Repr

/-- A YAML value. -/
inductive Yaml where
  | scalar (style : Yaml.Style) (text : String)
  | list (items : List Yaml)
  | table (entries : List (Yaml × Yaml))
  /-- A value with the name of its type. -/
  | tagged (tag : String) (value : Yaml)

namespace Yaml

/-- What stands where nothing is written. -/
def empty : Yaml := .scalar .plain ""

/-! ## Characters -/

/-- Blanks within a line. -/
def isBlank (c : Char) : Bool := c == ' ' || c == '\t'

/-- Characters that end a line. There are more of them in a text, but these are all that are left
once those that mean the same are made the same. -/
def isBreak (c : Char) : Bool := c == '\n' || c == '\u2028' || c == '\u2029'

/-- Whether a text is over or goes on with a blank or a line break. -/
def atGap : List Char → Bool
  | [] => true
  | c :: _ => isBlank c || isBreak c

/-- Characters that may stand in a text as they are. -/
def isAdmitted (c : Char) : Bool :=
  let n := c.toNat
  c == '\t' || c == '\n' || (0x20 ≤ n && n ≤ 0x7e) ||
    (0xa0 ≤ n && n ≤ 0xfffd) || 0x10000 ≤ n

/-- Characters that are written as they are, rather than escaped. -/
def isPrintable (c : Char) : Bool := isAdmitted c && c != '\t' && c != '\ufeff'

/-- Marks with a meaning of their own at the beginning of a scalar. -/
def indicators : List Char :=
  ['#', ',', '[', ']', '\x7b', '\x7d', '&', '*', '!', '|', '>', '\'', '"', '%', '@', '\x60']

/-- Marks that structure lists and tables in brackets. -/
def isBracketMark (c : Char) : Bool :=
  c == ',' || c == '[' || c == ']' || c == '\x7b' || c == '\x7d'

/-- Whether a plain scalar can begin here; within brackets two marks more are taken. -/
def startsPlain (inBrackets : Bool) : List Char → Bool
  | [] => false
  | c :: cs =>
    if c == '-' then !atGap cs
    else if c == '?' || c == ':' then !inBrackets && !atGap cs
    else !isBlank c && !isBreak c && !indicators.contains c

/-! ## What plain scalars mean -/

/-- Texts that stand for nothing. -/
def isNull (text : String) : Bool := ["", "null", "Null", "NULL", "~"].contains text

/-- Texts that stand for a truth value. -/
def isFlag (text : String) : Bool :=
  ["true", "True", "TRUE", "false", "False", "FALSE"].contains text

/-- The natural number that digits write, with a base in front or as a decimal that has no leading
zeros. -/
def magnitude? : List Char → Option Nat
  | '0' :: 'x' :: ds => numeral? 16 ds
  | '0' :: 'o' :: ds => numeral? 8 ds
  | '0' :: 'b' :: ds => numeral? 2 ds
  | '0' :: _ :: _ => none
  | ds => numeral? 10 ds

/-- The natural number that a plain scalar writes. -/
def natural? (text : String) : Option Nat :=
  match text.toList with
  | '+' :: ds => magnitude? ds
  | ds => magnitude? ds

/-- The kind of number without a decimal that a plain scalar names. -/
def nonFinite? (text : String) : Option NonFinite :=
  if [".inf", ".Inf", ".INF", "+.inf", "+.Inf", "+.INF"].contains text then some .infinity
  else if ["-.inf", "-.Inf", "-.INF"].contains text then some .negativeInfinity
  else if [".nan", ".NaN", ".NAN"].contains text then some .missing
  else none

/-- The number that a plain scalar writes. -/
def number? {α : Type} [NumberText α] (text : String) : Option α :=
  match nonFinite? text with
  | some kind => NumberText.nonFinite kind
  | none => (Decimal.ofText? text.toList).bind NumberText.nearest

/-- Whether a plain scalar writes a whole number of at most 128 bits. -/
def isWhole (text : String) : Bool :=
  match text.toList with
  | '-' :: ds => (magnitude? ds).any fun n => n ≤ Nat.pow 2 127
  | _ => (natural? text).any fun n => n < Nat.pow 2 128

/-- Whether a text is digits behind a sign or none, with a zero in front of others. It is no number,
but would be mistaken for one. -/
def isPaddedNumber (text : String) : Bool :=
  match (Decimal.readSign text.toList).2 with
  | '0' :: c :: ds => (c :: ds).all isDigit
  | _ => false

/-- Whether a text, written plainly, means something else than itself. -/
def isAmbiguous (α : Type) [NumberText α] (text : String) : Bool :=
  isNull text || isFlag text || isWhole text || isPaddedNumber text || (number? text : Option α).isSome

/-! ## Writing texts as scalars -/

/-- Whether a colon or a number sign within some characters would end a plain scalar. -/
def breaksPlain : (afterBlank : Bool) → List Char → Bool
  | _, [] => false
  | afterBlank, c :: cs =>
    (c == ':' && atGap cs) || (c == '#' && afterBlank) || breaksPlain (isBlank c) cs

/-- Whether a text can stand in a line as a plain scalar. -/
def fitsPlain (text : String) : Bool :=
  let cs := text.toList
  startsPlain false cs && cs.all (fun c => isPrintable c && !isBreak c) && cs.getLast? != some ' ' &&
    !breaksPlain false cs && cs.take 3 != ['-', '-', '-'] && cs.take 3 != ['.', '.', '.']

/-- A text as a scalar that is read as this text: plain if it can be, otherwise quoted. -/
def ofString (α : Type) [NumberText α] (text : String) : Yaml :=
  .scalar (if fitsPlain text && !isAmbiguous α text then .plain else .quoted) text

/-- A number as a plain scalar. -/
def ofNumber {α : Type} [Scalar α] [NumberText α] (x : α) : Yaml :=
  .scalar .plain <| match NumberText.shortest .toEven x with
    | some d => d.stored ""
    | none => match NumberText.kind x with
      | .infinity => ".inf"
      | .negativeInfinity => "-.inf"
      | .missing => ".nan"

/-- A natural number as a plain scalar. -/
def ofNat (n : Nat) : Yaml := .scalar .plain (toString n)

/-- A table whose keys are texts. -/
def record (α : Type) [NumberText α] (entries : List (String × Yaml)) : Yaml :=
  .table (entries.map fun e => (ofString α e.1, e.2))

/-- Nothing, as a plain scalar. -/
def null : Yaml := .scalar .plain "null"

end Yaml

end NoteRoll
