/-!
# Sets of characters

A property of characters as a table of bounds. From one bound to the next the property holds or fails
throughout, and before the first it fails.
-/

namespace NoteRoll

/-- A set of characters: the first one in it, the first one after that which is not, and so on. -/
structure CharSet where
  bounds : List Nat

namespace CharSet

/-- Whether a code point is in, where `before` says this of what lies below the first bound. -/
def isInside (code : Nat) : (before : Bool) → List Nat → Bool
  | before, [] => before
  | before, bound :: rest => if code < bound then before else isInside code (!before) rest

/-- Whether a character is in a set. -/
def contains (s : CharSet) (c : Char) : Bool := isInside c.toNat false s.bounds

end CharSet

/-- Whether a character is a control, of the lower or the upper set. -/
def isControl (c : Char) : Bool := c.toNat < 0x20 || (0x7f ≤ c.toNat && c.toNat < 0xa0)

/-- White space of any script. -/
def isWhiteSpace (c : Char) : Bool :=
  let n := c.toNat
  (9 ≤ n && n ≤ 13) || (0x2000 ≤ n && n ≤ 0x200a) ||
    [0x20, 0x85, 0xa0, 0x1680, 0x2028, 0x2029, 0x202f, 0x205f, 0x3000].contains n

end NoteRoll
