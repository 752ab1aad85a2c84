/-!
# Doubles

Binary floating point numbers of 64 bits, with one NaN.

The magnitudes — zero, the positive finite numbers and infinity — are counted upwards from zero:
a magnitude *is* its **rank** in that order, and the low 63 bits of the binary form are the rank
itself. Every finite magnitude is a whole number of **units** of `2 ^ -1074`, the least positive
one, so all arithmetic on values is arithmetic on natural numbers:

* ranks below `2 ^ 52` are subnormal, and count units one by one;
* from there on each block of `2 ^ 52` ranks counts in steps twice as large as the block before.

The rank of infinity stands for `2 ^ 1024`, the number that would come next.
-/

namespace SvmLight

/-! ### Magnitudes -/

/-- How many ranks a block has, which are `2 ^ 52`. -/
def blockRanks : Nat := 0x10000000000000

/-- The rank of infinity: all 2047 blocks of finite magnitudes come before it. -/
def infinityRank : Nat := 2047 * blockRanks

/-- The number of units of `2 ^ -1074` that a rank stands for. -/
def unitsOfRank (rank : Nat) : Nat :=
  let block := rank / blockRanks
  let step := rank % blockRanks
  if block = 0 then step else (blockRanks + step) <<< (block - 1)

/-- Zero, a positive finite number, or infinity. -/
structure Magnitude where
  /-- how many magnitudes are smaller -/
  rank : Nat
  /-- infinity is the largest -/
  rank_le : rank ≤ infinityRank := by decide
deriving DecidableEq

namespace Magnitude

/-- Zero. -/
def zero : Magnitude := ⟨0, by decide⟩

/-- Infinity. -/
def infinity : Magnitude := ⟨infinityRank, Nat.le_refl _⟩

/-- The value in units of `2 ^ -1074`. -/
def units (m : Magnitude) : Nat := unitsOfRank m.rank

end Magnitude

/-! ### Doubles -/

/-- A floating point number: a sign and a magnitude, or no number at all. -/
inductive Double where
  /-- not a number -/
  | nan
  /-- a number; both zeros have a sign -/
  | signed (negative : Bool) (magnitude : Magnitude)
deriving DecidableEq

namespace Double

/-- Positive zero. -/
def zero : Double := .signed false .zero

/-- One: 1023 blocks of magnitudes are smaller. -/
def one : Double := .signed false ⟨1023 * blockRanks, by decide⟩

/-! ### The binary form -/

/-- The value of the top bit, which is `2 ^ 63`. -/
def signBit : Nat := 0x8000000000000000

/-- Reads a binary form: the sign in the top bit, the rank in the others. A rank beyond infinity
is a NaN. -/
def ofBits (bits : UInt64) : Double :=
  let rank := bits.toNat % signBit
  if h : rank ≤ infinityRank then .signed (signBit ≤ bits.toNat) ⟨rank, h⟩ else .nan

/-- The binary form; a NaN gets the quiet one without a payload. -/
def toBits : Double → UInt64
  | .nan => UInt64.ofNat (infinityRank + blockRanks / 2)
  | .signed negative m => UInt64.ofNat (if negative then signBit + m.rank else m.rank)

/-! ### Order -/

/-- A number's place on the line, counted in ranks from zero; both zeros share one place. -/
def place? : Double → Option Int
  | .nan => none
  | .signed true m => some (-(m.rank : Int))
  | .signed false m => some m.rank

/-- Whether both are numbers and the first is the smaller one. -/
def lt (x y : Double) : Bool :=
  match x.place?, y.place? with
  | some i, some j => i < j
  | _, _ => false

/-- Whether both are numbers of one value; a NaN equals nothing, and the zeros equal each other. -/
def eqv (x y : Double) : Bool :=
  match x.place?, y.place? with
  | some i, some j => i == j
  | _, _ => false

/-- The nearest point of the interval from `low` to `high`; a NaN stays as it is. -/
def clamp (low high x : Double) : Double :=
  let x := if x.lt low then low else x
  if high.lt x then high else x

end Double

end SvmLight
