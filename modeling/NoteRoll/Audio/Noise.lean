import NoteRoll.Scalar

/-!
# White noise

Noise is drawn from a stream cipher's key stream, so that a voice sounds the same whenever it is
rendered. The key is expanded from the voice's number by a linear congruential generator with a
permuted output; the stream is that of ChaCha with eight rounds. Each sample takes two words.
-/

namespace NoteRoll

/-- A position in a key stream, with the words of the current block that are left. -/
structure Noise where
  key : List UInt32
  /-- The number of the next block. -/
  block : Nat
  words : List UInt32

namespace Noise

/-- One step of the generator that expands a number into a key. -/
def expandStep (state : UInt64) : UInt64 :=
  state * 6364136223846793005 + 11634580027462260723

/-- A word turned right by some bits. -/
def rotateRight (x : UInt32) (n : UInt32) : UInt32 :=
  (x >>> n) ||| (x <<< ((32 - n) &&& 31))

/-- A word turned left by some bits. -/
def rotateLeft (x : UInt32) (n : UInt32) : UInt32 := rotateRight x ((32 - n) &&& 31)

/-- The word that a state of the expanding generator gives. -/
def expandOutput (state : UInt64) : UInt32 :=
  rotateRight (((state >>> 18) ^^^ state) >>> 27).toUInt32 (state >>> 59).toUInt32

/-- The key expanded from a number, of so many words. -/
def expand : (words : Nat) → UInt64 → List UInt32
  | 0, _ => []
  | n + 1, state => expandOutput (expandStep state) :: expand n (expandStep state)

/-- The beginning of a stream, for a number. -/
def ofSeed (seed : Nat) : Noise := ⟨expand 8 (UInt64.ofNat seed), 0, []⟩

/-- The quarter round on four words. -/
def quarterRound (a b c d : UInt32) : UInt32 × UInt32 × UInt32 × UInt32 :=
  let a := a + b
  let d := rotateLeft (d ^^^ a) 16
  let c := c + d
  let b := rotateLeft (b ^^^ c) 12
  let a := a + b
  let d := rotateLeft (d ^^^ a) 8
  let c := c + d
  let b := rotateLeft (b ^^^ c) 7
  (a, b, c, d)

/-- The quarter round on the words at four places of a block. -/
def mixAt (w : Array UInt32) (i j k l : Nat) : Array UInt32 :=
  let (a, b, c, d) := quarterRound (w.getD i 0) (w.getD j 0) (w.getD k 0) (w.getD l 0)
  (((w.setIfInBounds i a).setIfInBounds j b).setIfInBounds k c).setIfInBounds l d

/-- A round on the columns and one on the diagonals. -/
def doubleRound (w : Array UInt32) : Array UInt32 :=
  let w := mixAt w 0 4 8 12
  let w := mixAt w 1 5 9 13
  let w := mixAt w 2 6 10 14
  let w := mixAt w 3 7 11 15
  let w := mixAt w 0 5 10 15
  let w := mixAt w 1 6 11 12
  let w := mixAt w 2 7 8 13
  mixAt w 3 4 9 14

/-- The block that the rounds start from: constants, key, block number, and no stream number. -/
def initialBlock (key : List UInt32) (block : Nat) : Array UInt32 :=
  ([0x61707865, 0x3320646e, 0x79622d32, 0x6b206574] ++ key ++
    [UInt32.ofNat block, UInt32.ofNat (block / 4294967296), 0, 0]).toArray

/-- The words of a block of the key stream: eight rounds, added to what they started from. -/
def blockWords (key : List UInt32) (block : Nat) : List UInt32 :=
  let start := initialBlock key block
  let mixed := doubleRound (doubleRound (doubleRound (doubleRound start)))
  (List.range 16).map fun i => start.getD i 0 + mixed.getD i 0

/-- The next two words of the stream, the lower half first, as one number. -/
def next (n : Noise) : Nat × Noise :=
  match n.words with
  | low :: high :: words => (low.toNat + high.toNat * 4294967296, { n with words })
  | _ =>
    match blockWords n.key n.block with
    | low :: high :: words =>
      (low.toNat + high.toNat * 4294967296, { n with block := n.block + 1, words })
    | _ => (0, n)

/-- The next sample, at least -1 and below 1: the 52 high bits of a number as a fraction. -/
def white {α : Type} [Scalar α] (n : Noise) : α × Noise :=
  let (bits, n) := n.next
  (Scalar.ofNat (bits / 4096) / 2251799813685248.0 - 1, n)

end Noise

end NoteRoll
