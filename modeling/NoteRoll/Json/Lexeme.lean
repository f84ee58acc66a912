import NoteRoll.Json.Basic

/-!
# JSON lexemes

Blanks, words, strings and numbers at the front of a text. Each function answers with what it read
and the rest of the text, or with the first fault it met. A text can break the grammar, end too
early, or hold a value of another kind than was asked for.

The hard case is an escape `\u`. A leading surrogate has to be followed by an escape of its
trailing one where the string is wanted; where the value is only skipped, any four hexadecimal
digits do.
-/

namespace NoteRoll.Json

/-- Why a text could not be read. -/
inductive Fault where
  /-- The grammar is broken. -/
  | grammar
  /-- The text ends too early. -/
  | ended
  /-- A value of the wrong kind, or a member that is missing or repeated. -/
  | mismatch
  deriving DecidableEq, Repr

/-- What was read, and the rest of the text. -/
abbrev Reading (β : Type) := Except Fault (β × List Char)

/-- Whether what is read is wanted or only skipped. -/
inductive Purpose where
  | wanted
  | skipped
  deriving DecidableEq

/-- Blank characters between lexemes. -/
def isBlank (c : Char) : Bool := c == ' ' || c == '\n' || c == '\t' || c == '\r'

/-- The text without blanks in front. -/
def skipBlanks (cs : List Char) : List Char := cs.dropWhile isBlank

/-- Reads the given characters. -/
def readWord : (expected : List Char) → List Char → Reading Unit
  | [], cs => .ok ((), cs)
  | _ :: _, [] => .error .ended
  | e :: es, c :: cs => if c = e then readWord es cs else .error .grammar

/-- Number of bytes of a text. -/
def byteCount (cs : List Char) : Nat := cs.foldl (fun n c => n + c.utf8Size) 0

/-- Where in a string the reading stands. -/
inductive Phase where
  /-- Among plain characters. -/
  | plain
  /-- Behind a backslash. -/
  | escape
  /-- Behind some of the four digits of an escape, with the surrogate that leads it. -/
  | hex (lead : Option Nat) (count value : Nat)
  /-- Behind a leading surrogate. -/
  | afterLead (lead : Nat)
  /-- Behind a leading surrogate and a backslash. -/
  | afterSlash (lead : Nat)

/-- The character that an escape letter stands for. -/
def escapeChar? (c : Char) : Option Char :=
  match c with
  | '"' => some '"'
  | '\\' => some '\\'
  | '/' => some '/'
  | 'b' => some '\x08'
  | 'f' => some '\x0c'
  | 'n' => some '\n'
  | 'r' => some '\r'
  | 't' => some '\t'
  | _ => none

/-- What a code unit means: a character, or a surrogate that leads a pair. -/
def codeUnit (purpose : Purpose) (lead : Option Nat) (unit : Nat) : Except Fault (Char ⊕ Nat) :=
  match purpose, lead with
  | .skipped, _ => .ok (.inl ' ')
  | .wanted, none =>
    if 0xDC00 ≤ unit ∧ unit ≤ 0xDFFF then .error .grammar
    else if 0xD800 ≤ unit ∧ unit ≤ 0xDBFF then .ok (.inr unit)
    else .ok (.inl (Char.ofNat unit))
  | .wanted, some high =>
    if 0xDC00 ≤ unit ∧ unit ≤ 0xDFFF then
      .ok (.inl (Char.ofNat ((high - 0xD800) * 0x400 + (unit - 0xDC00) + 0x10000)))
    else .error .grammar

/-- Reads a string behind its opening quote, character by character. -/
def readStringFrom (purpose : Purpose) : Phase → (done : List Char) → List Char → Reading String
  | _, _, [] => .error .ended
  | .plain, done, c :: cs =>
    if c = '"' then .ok (String.ofList done.reverse, cs)
    else if c = '\\' then readStringFrom purpose .escape done cs
    else if c.toNat < 0x20 then .error .grammar
    else readStringFrom purpose .plain (c :: done) cs
  | .escape, done, c :: cs =>
    if c = 'u' then readStringFrom purpose (.hex none 0 0) done cs
    else match escapeChar? c with
      | some e => readStringFrom purpose .plain (e :: done) cs
      | none => .error .grammar
  | .hex lead count value, done, c :: cs =>
    match hexValue? c with
    | none => if count + byteCount (c :: cs) < 4 then .error .ended else .error .grammar
    | some digit =>
      if count < 3 then readStringFrom purpose (.hex lead (count + 1) (16 * value + digit)) done cs
      else match codeUnit purpose lead (16 * value + digit) with
        | .error fault => .error fault
        | .ok (.inl char) => readStringFrom purpose .plain (char :: done) cs
        | .ok (.inr high) => readStringFrom purpose (.afterLead high) done cs
  | .afterLead high, done, c :: cs =>
    if c = '\\' then readStringFrom purpose (.afterSlash high) done cs else .error .grammar
  | .afterSlash high, done, c :: cs =>
    if c = 'u' then readStringFrom purpose (.hex (some high) 0 0) done cs else .error .grammar

/-- Reads a string behind its opening quote. -/
def readString (purpose : Purpose) (cs : List Char) : Reading String := readStringFrom purpose .plain [] cs

/-- The fault of a number that breaks off. -/
def brokenOff (purpose : Purpose) (rest : List Char) : Fault :=
  match purpose, rest with
  | .wanted, [] => .ended
  | _, _ => .grammar

/-- Reads digits, of which there has to be one. -/
def readDigits (purpose : Purpose) (cs : List Char) : Reading (List Char) :=
  match cs.takeWhile isDigit with
  | [] => .error (brokenOff purpose cs)
  | ds => .ok (ds, cs.dropWhile isDigit)

/-- Reads the whole part of a number, which has no zero in front of another digit. -/
def readWhole (purpose : Purpose) (cs : List Char) : Reading (List Char) :=
  match readDigits purpose cs with
  | .ok ('0' :: _ :: _, _) => .error .grammar
  | r => r

/-- Reads the digits behind a decimal point, if there is one. -/
def readFraction (purpose : Purpose) : List Char → Reading (Option (List Char))
  | '.' :: cs => (readDigits purpose cs).map fun (ds, rest) => (some ds, rest)
  | cs => .ok (none, cs)

/-- Reads the exponent, if there is one. -/
def readExponent (purpose : Purpose) (cs : List Char) : Reading (Option Int) :=
  let signed (negative : Bool) (cs : List Char) : Reading (Option Int) :=
    (readDigits purpose cs).map fun (ds, rest) =>
      (some (if negative then -(digitsValue ds : Int) else digitsValue ds), rest)
  match cs with
  | 'e' :: '-' :: cs | 'E' :: '-' :: cs => signed true cs
  | 'e' :: '+' :: cs | 'E' :: '+' :: cs => signed false cs
  | 'e' :: cs | 'E' :: cs => signed false cs
  | cs => .ok (none, cs)

/-- The greatest whole number that the digits of a decimal are kept in. -/
def maxDigits : Nat := 18446744073709551615

/-- Puts digits behind some others as long as there is room for them; answers with those that were
left over, too. -/
def keepDigits : (kept : Nat) → List Char → Nat × List Char
  | kept, [] => (kept, [])
  | kept, c :: cs =>
    let more := digitsValue [c] + 10 * kept
    if more ≤ maxDigits then keepDigits more cs else (kept, c :: cs)

/-- The decimal of what stands before and behind a point, and of a power of ten. Digits that there is
no room for count as zeros. -/
def decimalOf (negative : Bool) (whole places : List Char) (exponent : Int) : Decimal :=
  let (digits, wholeLeft) := keepDigits 0 whole
  let (digits, placesLeft) := keepDigits digits places
  ⟨negative, digits, exponent + wholeLeft.length + placesLeft.length - places.length⟩

/-- The number that digits with a sign write. -/
def wholeLiteral (negative : Bool) (whole : List Char) : Literal :=
  let n := digitsValue whole
  if negative ∧ 0 < n ∧ n ≤ 9223372036854775808 then .integer (-(n : Int))
  else if !negative ∧ n ≤ maxDigits then .integer n
  else .decimal (decimalOf negative whole [] 0)

/-- Reads a number. -/
def readNumber (purpose : Purpose) (cs : List Char) : Reading Literal :=
  let (negative, cs) := match cs with
    | '-' :: cs => (true, cs)
    | cs => (false, cs)
  match readWhole purpose cs with
  | .error fault => .error fault
  | .ok (whole, cs) =>
    match readFraction purpose cs with
    | .error fault => .error fault
    | .ok (fraction, cs) =>
      match readExponent purpose cs with
      | .error fault => .error fault
      | .ok (exponent, cs) =>
        match fraction, exponent with
        | none, none => .ok (wholeLiteral negative whole, cs)
        | _, _ => .ok (.decimal (decimalOf negative whole (fraction.getD []) (exponent.getD 0)), cs)

/-- Reads a number that has to be in the range of `α`. -/
def readNumberIn (α : Type) [NumberText α] (cs : List Char) : Reading Literal :=
  match readNumber .wanted cs with
  | .error fault => .error fault
  | .ok (l, rest) => if (l.value? : Option α).isSome then .ok (l, rest) else .error .grammar

end NoteRoll.Json
