/-!
# ChaCha words

A stream of random words that any two programs can agree on: the keystream of the ChaCha stream
cipher with 12 rounds.

* **blocks** — sixteen words, in four rows of four columns. A `round` mixes each column; turning
  the rows against each other before the next one makes it mix the diagonals.
* **words** — `word key i` is the word with the number `i` of the stream for a key. It is computed
  from the block that holds it and from nothing before, so a place in the stream is only a number.
* **keys** — `Key.ofSeed` spreads a seed of 64 bits over the 256 bits of a key.

The blocks are numbered by a counter of 64 bits, so the stream repeats after `period` words.
-/

namespace SvmLight.ChaCha

/-! ### Rows -/

/-- Four words, one in each column. -/
structure Row where
  /-- in the first column -/
  w0 : UInt32
  /-- in the second column -/
  w1 : UInt32
  /-- in the third column -/
  w2 : UInt32
  /-- in the last column -/
  w3 : UInt32
deriving DecidableEq

namespace Row

/-- Adds two rows, column by column. -/
def add (r s : Row) : Row := ⟨r.w0 + s.w0, r.w1 + s.w1, r.w2 + s.w2, r.w3 + s.w3⟩

/-- Turns all bits of a word to the left. -/
def rotateWord (x : UInt32) (count : UInt32) : UInt32 := x <<< count ||| x >>> (32 - count)

/-- Combines two rows by exclusive or, and turns the bits of each word to the left. -/
def xorRotate (r s : Row) (count : UInt32) : Row :=
  ⟨rotateWord (r.w0 ^^^ s.w0) count, rotateWord (r.w1 ^^^ s.w1) count,
    rotateWord (r.w2 ^^^ s.w2) count, rotateWord (r.w3 ^^^ s.w3) count⟩

/-- Moves every word one column to the left, and the first one to the last column. -/
def turn (r : Row) : Row := ⟨r.w1, r.w2, r.w3, r.w0⟩

/-- The words of a row. -/
def toList (r : Row) : List UInt32 := [r.w0, r.w1, r.w2, r.w3]

end Row

/-! ### Blocks -/

/-- Sixteen words, in four rows. -/
structure Block where
  /-- the first row -/
  r0 : Row
  /-- the second row -/
  r1 : Row
  /-- the third row -/
  r2 : Row
  /-- the last row -/
  r3 : Row
deriving DecidableEq

namespace Block

/-- Mixes the words of each column. -/
def round (b : Block) : Block :=
  let a := b.r0.add b.r1
  let d := b.r3.xorRotate a 16
  let c := b.r2.add d
  let b := b.r1.xorRotate c 12
  let a := a.add b
  let d := d.xorRotate a 8
  let c := c.add d
  let b := b.xorRotate c 7
  ⟨a, b, c, d⟩

/-- Turns the rows so that each diagonal becomes a column. -/
def skew (b : Block) : Block := ⟨b.r0, b.r1.turn, b.r2.turn.turn, b.r3.turn.turn.turn⟩

/-- Turns the rows so that each column becomes the diagonal that it was. -/
def unskew (b : Block) : Block := ⟨b.r0, b.r1.turn.turn.turn, b.r2.turn.turn, b.r3.turn⟩

/-- A round on the columns and a round on the diagonals. -/
def doubleRound (b : Block) : Block := b.round.skew.round.unskew

/-- Adds two blocks, word by word. -/
def add (b c : Block) : Block :=
  ⟨b.r0.add c.r0, b.r1.add c.r1, b.r2.add c.r2, b.r3.add c.r3⟩

/-- The words of a block, row after row. -/
def toList (b : Block) : List UInt32 :=
  b.r0.toList ++ b.r1.toList ++ b.r2.toList ++ b.r3.toList

end Block

/-! ### The stream -/

/-- Eight words that decide the stream. -/
structure Key where
  /-- the first four words -/
  upper : Row
  /-- the last four words -/
  lower : Row
deriving DecidableEq

/-- The first row of every block before it is mixed: the octets of `expand 32-byte k`. -/
def constants : Row := ⟨0x61707865, 0x3320646e, 0x79622d32, 0x6b206574⟩

/-- The block with a number, before it is mixed. -/
def initial (key : Key) (number : Nat) : Block :=
  ⟨constants, key.upper, key.lower,
    ⟨UInt32.ofNat number, UInt32.ofNat (number >>> 32), 0, 0⟩⟩

/-- A stream of 12 rounds takes this many double rounds. -/
def doubleRounds : Nat := 6

/-- The block with a number. -/
def block (key : Key) (number : Nat) : Block :=
  (Nat.repeat Block.doubleRound doubleRounds (initial key number)).add (initial key number)

/-- How many words a block has. -/
def blockSize : Nat := 16

/-- The word with a number, counted from zero. -/
def word (key : Key) (number : Nat) : UInt32 :=
  (block key (number / blockSize)).toList.getD (number % blockSize) 0

/-- The stream repeats after this many words. -/
def period : Nat := UInt64.size * blockSize

theorem length_toList (b : Block) : b.toList.length = blockSize := rfl

/-! ### Keys from seeds -/

namespace Key

/-- One step of a linear congruence modulo `2 ^ 64`. -/
def advance (state : UInt64) : UInt64 := state * 6364136223846793005 + 11634580027462260723

/-- A word of a state: its upper bits folded, and turned to the right by the top five bits. -/
def fold (state : UInt64) : UInt32 :=
  let mixed := ((state >>> 18 ^^^ state) >>> 27).toUInt32
  let count := (state >>> 59).toUInt32
  mixed >>> count ||| mixed <<< (32 - count)

/-- The word with a number, counted from zero, of the key for a seed. -/
def wordOfSeed (seed : UInt64) (number : Nat) : UInt32 :=
  fold (Nat.repeat advance (number + 1) seed)

/-- The key for a seed: the words of eight successive states. -/
def ofSeed (seed : UInt64) : Key :=
  let w := wordOfSeed seed
  ⟨⟨w 0, w 1, w 2, w 3⟩, ⟨w 4, w 5, w 6, w 7⟩⟩

end Key

end SvmLight.ChaCha
