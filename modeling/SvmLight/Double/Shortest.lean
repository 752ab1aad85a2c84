import SvmLight.Double.Literal

/-!
# Shortest decimal digits

A double is written with the fewest digits that read back as the same double, in positional
notation: never an exponent, no point in a whole number, a sign on negative zero.

A magnitude of `n` units is exactly `n * 5 ^ 1074` times `10 ^ -1074`. For each power of ten, from
the largest down, the two multiples of it around the magnitude are read back; the first power with
a hit gives the digits. Of two hits the nearer one is taken, and of two equally near ones the
upper. The last power, `10 ^ -1074` itself, gives the magnitude exactly, so the search cannot fail.
-/

namespace SvmLight

namespace Decimal

/-! ### Positional notation -/

/-- Writes a decimal without an exponent: zeros fill up what lies left of the digits' end or
right of the point. -/
def positional (d : Decimal) : Text :=
  let digits := Numeral.natural d.significand
  match d.exponent with
  | .ofNat e => digits ++ List.replicate e '0'
  | .negSucc e =>
    let places := e + 1
    if places < digits.length then
      digits.take (digits.length - places) ++ '.' :: digits.drop (digits.length - places)
    else '0' :: '.' :: List.replicate (places - digits.length) '0' ++ digits

end Decimal

namespace Magnitude

/-! ### The search -/

/-- The value in units of `10 ^ -1074`. -/
def decimalUnits (m : Magnitude) : Nat := m.units * Nat.pow 5 1074

/-- The multiple of `10 ^ (power - 1074)` next to the magnitude that reads back as it, if one of
the two does. -/
def multipleAt (m : Magnitude) (power : Nat) : Option Decimal :=
  let exponent := (power : Int) - 1074
  let step := Nat.pow 10 power
  let lower : Decimal := ⟨m.decimalUnits / step, exponent⟩
  let upper : Decimal := ⟨m.decimalUnits / step + 1, exponent⟩
  match lower.toMagnitude == m, upper.toMagnitude == m with
  | true, true => some (if 2 * (m.decimalUnits % step) < step then lower else upper)
  | true, false => some lower
  | false, true => some upper
  | false, false => none

/-- The first hit among the powers up to `power`, from the largest down. -/
def shortestUpTo (m : Magnitude) : Nat → Decimal
  | 0 => ⟨m.decimalUnits, -1074⟩
  | power + 1 => (m.multipleAt (power + 1)).getD (m.shortestUpTo power)

/-- A power of ten above the value, and not far above it: a factor of two is a little less than
0.30103 factors of ten. -/
def firstPower (m : Magnitude) : Nat := (m.decimalUnits.log2 + 1) * 30103 / 100000 + 1

/-- The shortest decimal that reads back as a positive finite magnitude. -/
def shortest (m : Magnitude) : Decimal := m.shortestUpTo m.firstPower

/-- The text of a magnitude. -/
def text (m : Magnitude) : Text :=
  if m = .infinity then ['i', 'n', 'f']
  else if m = .zero then ['0']
  else m.shortest.positional

end Magnitude

/-- The text of a double. -/
def Double.text : Double → Text
  | .nan => ['N', 'a', 'N']
  | .signed true m => '-' :: m.text
  | .signed false m => m.text

end SvmLight
