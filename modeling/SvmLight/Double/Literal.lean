import SvmLight.Double.Rounding
import SvmLight.Numeral

/-!
# Floating point literals

`Double.ofText?` reads a literal: an optional sign, then `inf`, `infinity` or `nan` in any letter
case, or an unsigned decimal number. Such a number has digits with an optional point among them —
at least one digit, before or after it — and an optional exponent.

A **decimal** is the exact value that a literal denotes. It is rounded once, however many digits
it has. Powers of ten beyond the range of doubles are cut off beforehand, so that an exponent of
a billion costs nothing; the cut changes no result, since `10 ^ 342` is already infinite and the
least positive double is above `10 ^ -324`.
-/

namespace SvmLight

/-- The number `significand * 10 ^ exponent`. -/
structure Decimal where
  /-- the digits, read as one whole number -/
  significand : Nat
  /-- the power of ten that scales it -/
  exponent : Int
deriving DecidableEq

namespace Decimal

/-! ### Rounding to a magnitude -/

/-- The magnitude nearest to a decimal. -/
def toMagnitude (d : Decimal) : Magnitude :=
  match d.exponent with
  | .ofNat e =>
    if d.significand = 0 then .zero
    else if 342 ≤ e then .infinity
    else .nearest (d.significand * Nat.pow 10 e * Double.unitsPerOne) 1
  | .negSucc e =>
    if d.significand.log2 + 1076 ≤ 3 * (e + 1) then .zero
    else .nearest (d.significand * Double.unitsPerOne) (Nat.pow 10 (e + 1))

/-! ### Reading -/

/-- The exponent part: nothing, or the letter `e` in either case and a whole number. -/
def exponent? : Text → Option Int
  | [] => some 0
  | c :: t => if c == 'e' || c == 'E' then Numeral.integer? t else none

/-- The digits after a point, and what follows them; without a point there are none. -/
def splitFraction : Text → Text × Text
  | '.' :: t => (t.takeWhile Char.isDigit, t.dropWhile Char.isDigit)
  | t => ([], t)

/-- Reads an unsigned decimal number. -/
def ofText? (t : Text) : Option Decimal := do
  let whole := t.takeWhile Char.isDigit
  let (fraction, rest) := splitFraction (t.dropWhile Char.isDigit)
  let significand ← Numeral.digits? (whole ++ fraction)
  let exponent ← exponent? rest
  return ⟨significand, exponent - fraction.length⟩

end Decimal

namespace Double

/-- Reads a literal without its sign: a name in any letter case, or a decimal number. -/
def ofUnsigned? (negative : Bool) (t : Text) : Option Double :=
  let name := t.lowerAscii
  if name = ['i', 'n', 'f'] ∨ name = ['i', 'n', 'f', 'i', 'n', 'i', 't', 'y'] then
    some (.signed negative .infinity)
  else if name = ['n', 'a', 'n'] then some .nan
  else (Decimal.ofText? t).map fun d => .signed negative d.toMagnitude

/-- Reads a floating point literal. -/
def ofText? (t : Text) : Option Double :=
  let (negative, body) := Numeral.splitSign t
  ofUnsigned? negative body

end Double

end SvmLight
