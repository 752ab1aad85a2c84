import SvmLight.Text

/-!
# Numerals

Whole numbers in decimal notation, read and written.

* **reading** — `digits?` reads a non-empty run of ASCII digits, leading zeros included;
  `integer?` reads one with an optional sign in front. `index?` and `int64?` are the two ranges
  of the format: indices below `2 ^ 64` with an optional plus sign, and signed 64-bit numbers.
* **writing** — `natural` and `integer` write no leading zero and no plus sign.

Nothing is trimmed here: a blank anywhere makes a text no numeral.
-/

namespace SvmLight.Numeral

/-! ### Reading -/

/-- The value of a non-empty run of digits. -/
def digits? (t : Text) : Option Nat :=
  if t.isEmpty || !t.all Char.isDigit then none else some (Nat.ofDigitChars 10 t 0)

/-- Splits an optional sign off; the flag tells whether it is a minus. -/
def splitSign : Text → Bool × Text
  | '-' :: t => (true, t)
  | '+' :: t => (false, t)
  | t => (false, t)

/-- The value of an optional sign and a run of digits. -/
def integer? (t : Text) : Option Int :=
  let (negative, digits) := splitSign t
  (digits? digits).map fun n => if negative then -(n : Int) else n

/-- Indices are below this bound. -/
def indexBound : Nat := UInt64.size

/-- An index: an optional plus sign and digits whose value is below `indexBound`. -/
def index? (t : Text) : Option Nat :=
  let value := match t with
    | '+' :: digits => digits? digits
    | digits => digits? digits
  value.filter (· < indexBound)

/-- A signed 64-bit number: an optional sign and digits whose value is in range. -/
def int64? (t : Text) : Option Int64 :=
  ((integer? t).filter fun z => Int64.minValue.toInt ≤ z && z ≤ Int64.maxValue.toInt).map
    Int64.ofInt

/-! ### Writing -/

/-- A natural number in decimal notation. -/
def natural (n : Nat) : Text := Nat.toDigits 10 n

/-- A whole number in decimal notation, with a minus sign where it is negative. -/
def integer (z : Int) : Text :=
  if z < 0 then '-' :: natural z.natAbs else natural z.natAbs

end SvmLight.Numeral
