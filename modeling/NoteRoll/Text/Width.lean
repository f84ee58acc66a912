import NoteRoll.Text.CharWidth

/-!
# The width of text

Mostly a text takes as many cells as its characters do one by one. Some characters are shown as one,
though: a picture with what modifies it, pictures joined to a picture, and pairs of letters that a
script writes as one. The text is gone through from its end, because what follows a character decides
how much it takes.
-/

namespace NoteRoll

/-- What follows in a text, as far as it bears on the width of what is before. -/
inductive Following where
  /-- Nothing that bears on it. -/
  | nothing
  | lineFeed
  | skinTone
  | picture
  | flagLetter
  | flagLetters
  /-- A joiner and a picture. -/
  | joinedPicture
  /-- A key cap, a joiner and a picture. -/
  | joinedKeycap
  /-- One letter of a flag, and then a joiner and a picture. -/
  | joinedFlagLetter
  | joinedFlags
  | joinedFlagsAndLetter
  /-- The end of a tagged flag, with so many tag letters before it, a joiner and a picture. -/
  | joinedTagLetters (count : Nat)
  /-- The end of a tagged flag with so many tag digits first, a joiner and a picture. -/
  | joinedTagDigits (count : Nat)
  | kiratRaiE
  | kiratRaiAi
  | arabicAlef
  | hebrewLamed
  | bugineseYa
  | bugineseIYa
  | tifinaghLetter
  | tifinaghJoined
  | lisuTone
  | turkicI
  | khmerSubjoined
  deriving DecidableEq, Repr

/-- How a selector wants the character before it to look. -/
inductive Selector where
  | fullWidth
  | text
  | picture
  deriving DecidableEq, Repr

namespace Following

/-- Whether it is a letter that may be written as one with a letter before it. -/
def isLetter : Following → Bool
  | arabicAlef | hebrewLamed | bugineseYa | bugineseIYa | tifinaghLetter | tifinaghJoined
  | lisuTone | turkicI | khmerSubjoined => true
  | _ => false

/-- Whether invisible characters may stand between it and what is before. -/
def seesThrough (f : Following) : Bool := f.isLetter && f != arabicAlef

/-- Whether a character is a letter of a flag. -/
def isFlagLetter (c : Char) : Bool := 0x1f1e6 ≤ c.toNat && c.toNat < 0x1f200

/-- What a character is to those before it. -/
def ofChar (c : Char) : Following :=
  let code := c.toNat
  if c = '\n' then .lineFeed
  else if code < 0x590 then .nothing
  else if isSkinTone c then .skinTone
  else if isFlagLetter c then .flagLetter
  else if CharSet.pictures.contains c then .picture
  else if CharSet.subjoined.contains c then .khmerSubjoined
  else if isAlef code then .arabicAlef
  else if isTifinagh code then .tifinaghLetter
  else if code = 0x5dc then .hebrewLamed
  else if code = 0x1a10 then .bugineseYa
  else if code = 0xa4fc || code = 0xa4fd then .lisuTone
  else if code = 0x10c03 then .turkicI
  else if code = 0x16d67 then .kiratRaiE
  else if code = 0x16d68 then .kiratRaiAi
  else .nothing
where
  isAlef (code : Nat) : Bool :=
    code = 0x622 || code = 0x623 || code = 0x625 || code = 0x627 ||
      (0x671 ≤ code && code ≤ 0x673) || code = 0x675 || code = 0x773 || code = 0x774 ||
      (0x870 ≤ code && code ≤ 0x882)
  isTifinagh (code : Nat) : Bool := (0x2d31 ≤ code && code ≤ 0x2d65) || code = 0x2d6f

/-- What a picture, and what is joined to one, makes of the character before it: how many cells that
adds to those behind it, and what it is to the characters before. -/
def beforePicture? (f : Following) (c : Char) : Option (Int × Following) :=
  let isTagLetter := 0xe0061 ≤ c.toNat && c.toNat ≤ 0xe007a
  let isTagDigit := 0xe0030 ≤ c.toNat && c.toNat ≤ 0xe0039
  match f with
  | .skinTone =>
    if CharSet.modifierBases.contains c then some (0, .picture)
    else if c = '\u200d' then some (0, .joinedPicture)
    else none
  | .picture => if c = '\u200d' then some (0, .joinedPicture) else none
  | .flagLetter => if isFlagLetter c then some (1, .flagLetters) else none
  | .flagLetters =>
    if isFlagLetter c then some (1, .flagLetters)
    else if c = '\u200d' then some (0, .joinedPicture)
    else none
  | .joinedPicture =>
    if c = '\u20e3' then some (0, .joinedKeycap)
    else if isFlagLetter c then some (1, .joinedFlagLetter)
    else if isSkinTone c then some (0, .skinTone)
    else if c.toNat = 0xe007f then some (0, .joinedTagLetters 0)
    else if CharSet.pictures.contains c then some (0, .picture)
    else none
  | .joinedFlagLetter => if isFlagLetter c then some (-1, .joinedFlags) else none
  | .joinedFlags =>
    if isFlagLetter c then some (3, .joinedFlagsAndLetter)
    else if c = '\u200d' then some (0, .joinedPicture)
    else none
  | .joinedFlagsAndLetter =>
    if isFlagLetter c then some (-1, .joinedFlags)
    else if c = '\u200d' then some (0, .joinedPicture)
    else none
  | .joinedTagLetters n =>
    if isTagLetter && n < 6 then some (0, .joinedTagLetters (n + 1))
    else if isTagDigit && n < 5 then some (0, .joinedTagDigits 1)
    else if c.toNat = 0x1f3f4 && 3 ≤ n then some (0, .picture)
    else none
  | .joinedTagDigits n =>
    if isTagDigit && n < 3 then some (0, .joinedTagDigits (n + 1))
    else if c.toNat = 0x1f3f4 && n = 3 then some (0, .picture)
    else none
  | _ => none

/-- What a letter makes of the character before it, where a script writes both as one. A joiner
between them may be needed for that. -/
def beforeLetter? (f : Following) (joined : Bool) (c : Char) : Option (Int × Following) :=
  let code := c.toNat
  match f with
  | .arabicAlef =>
    if isLam code then some (0, .nothing)
    else if hasNoCell c && !CharSet.opaqueMarks.contains c then some (0, .arabicAlef)
    else none
  | .hebrewLamed => if joined && code = 0x5d0 then some (0, .nothing) else none
  | .khmerSubjoined => if code = 0x17d2 then some (-1, .nothing) else none
  | .bugineseYa => if joined && code = 0x1a17 then some (0, .bugineseIYa) else none
  | .bugineseIYa => if code = 0x1a15 then some (0, .nothing) else none
  | .tifinaghLetter =>
    if code = 0x2d7f then some (1, .tifinaghJoined)
    else if joined && ofChar.isTifinagh code then some (0, .nothing)
    else none
  | .tifinaghJoined => if ofChar.isTifinagh code then some (-1, .nothing) else none
  | .lisuTone => if 0xa4f8 ≤ code && code ≤ 0xa4fb then some (0, .nothing) else none
  | .turkicI => if joined && code = 0x10c32 then some (0, .nothing) else none
  | .kiratRaiE =>
    if code = 0x16d63 || code = 0x16d69 then some (0, .nothing)
    else if code = 0x16d67 then some (0, .kiratRaiAi)
    else if code = 0x16d68 then some (1, .kiratRaiE)
    else none
  | .kiratRaiAi => if code = 0x16d63 then some (0, .nothing) else none
  | _ => none
where
  isLam (code : Nat) : Bool :=
    code = 0x644 || (0x6b5 ≤ code && code ≤ 0x6b8) || code = 0x76a || code = 0x8a6 || code = 0x8c7

end Following

/-- What follows, with the joiner and the selector that stand before it. -/
structure Context where
  following : Following := .nothing
  joined : Bool := false
  selector : Option Selector := none
  deriving DecidableEq, Repr

namespace Context

/-- What follows once a selector found nothing to select: a letter is still seen behind it. -/
def dropSelector (x : Context) : Context :=
  if x.selector.isNone then x
  else if x.following.isLetter then { x with selector := none }
  else {}

/-- What follows a selector that stands before what follows. -/
def select (x : Context) (s : Selector) : Context :=
  let isJoined := x.following == .joinedPicture || x.following == .joinedKeycap
  if x.following.isLetter || (s == .picture && isJoined) then { x with selector := some s }
  else { selector := some s }

/-- The selector that a character is. -/
def selector? (c : Char) : Option Selector :=
  if c = '\ufe01' then some .fullWidth
  else if c = '\ufe0e' then some .text
  else if c = '\ufe0f' then some .picture
  else none

/-- Whether a selector has an effect on a character. -/
def selects (s : Selector) (c : Char) : Bool :=
  match s with
  | .picture => CharSet.pictureBases.contains c
  | .text =>
    CharSet.pictureBases.contains c && CharSet.pictures.contains c &&
      !(0x1f200 ≤ c.toNat && c.toNat < 0x1f300)
  | .fullWidth => c = '‘' || c = '’' || c = '“' || c = '”'

/-- The cells of a character that a selector before what follows has an effect on. -/
def selected (x : Context) (s : Selector) : Int × Context :=
  match s with
  | .picture =>
    (if x.following == .joinedPicture || x.following == .joinedKeycap then 0 else 2,
      { following := .picture })
  | .text => (1, {})
  | .fullWidth => (2, {})

/-- Whether a character is a mark that is never shown, which keeps no letters apart. -/
def isUnseenMark (c : Char) : Bool :=
  let code := c.toNat
  code = 0x34f || code = 0x17b4 || code = 0x17b5 || (0x180b ≤ code && code ≤ 0x180d) ||
    code = 0x180f || (0xfe00 ≤ code && code ≤ 0xfe0f) || (0xe0100 ≤ code && code ≤ 0xe01ef)

/-- The cells of a character in what follows it, and what follows the characters before. -/
def unselected (x : Context) (c : Char) : Int × Context :=
  let alone : Int × Context := (charWidth c, { following := .ofChar c })
  if c.toNat ≤ 0xa0 then
    if c = '\r' && x.following == .lineFeed then (0, {}) else alone
  else
    match selector? c with
    | some s => (0, x.select s)
    | none =>
      if x.following.seesThrough && c = '\u200d' then (0, { x with joined := true })
      else if x.following.seesThrough && isUnseenMark c then (0, x)
      else
        match (x.following.beforePicture? c).or (x.following.beforeLetter? x.joined c) with
        | some (cells, f) => (cells, { following := f })
        | none => alone

/-- The cells that a character adds to the text behind it, and what follows the characters before. -/
def step (x : Context) (c : Char) : Int × Context :=
  match x.selector with
  | some s => if selects s c then x.selected s else x.dropSelector.unselected c
  | none => x.unselected c

end Context

/-- The cells of a text, and what it is to characters before it. -/
def widthFrom (text : List Char) : Int × Context :=
  text.foldr (fun c sum => let (cells, x) := sum.2.step c; (sum.1 + cells, x)) (0, {})

/-- Number of cells that a text takes. -/
def textWidth (text : List Char) : Nat := (widthFrom text).1.toNat

end NoteRoll
