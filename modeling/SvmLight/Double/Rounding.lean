import SvmLight.Double.Basic

/-!
# Rounding

`Magnitude.nearest num den` is the magnitude nearest to `num / den` units, where a tie goes to the
even rank. Everything that produces a double from an exact value goes through it: decimal
literals, whole numbers and products.

The value is rounded down first: `floorRank` is the last rank that is not larger. Then the value
is compared with the midpoint between that rank and the next. A value of `2 ^ 1024` less half a
step, or more, goes to infinity.
-/

namespace SvmLight

/-- The last rank whose value is at most `q` units. Below `2 ^ 53` ranks and units are the same;
above, each doubling of `q` adds one block of ranks. -/
def floorRank (q : Nat) : Nat :=
  let shift := q.log2 - 52
  shift * blockRanks + (q >>> shift)

/-- The rank nearest to `num / den` units; a tie goes to the even rank. Ranks are not bounded
here. -/
def nearestRank (num den : Nat) : Nat :=
  let low := floorRank (num / den)
  let midpoint := (unitsOfRank low + unitsOfRank (low + 1)) * den
  match compare (2 * num) midpoint with
  | .lt => low
  | .gt => low + 1
  | .eq => if low % 2 = 0 then low else low + 1

/-- The magnitude nearest to `num / den` units; a tie goes to the even rank. -/
def Magnitude.nearest (num den : Nat) : Magnitude :=
  ⟨min (nearestRank num den) infinityRank, Nat.min_le_right _ _⟩

namespace Double

/-- How many units make one, which are `2 ^ 1074`. -/
def unitsPerOne : Nat := 1 <<< 1074

/-- The double nearest to a natural number. -/
def ofNat (n : Nat) : Double := .signed false (.nearest (n * unitsPerOne) 1)

/-- The double nearest to a whole number; zero is positive. -/
def ofInt (z : Int) : Double := .signed (z < 0) (.nearest (z.natAbs * unitsPerOne) 1)

/-- The product, rounded once. Zero times infinity is no number. -/
def mul : Double → Double → Double
  | .signed s m, .signed t n =>
    if m = .infinity ∨ n = .infinity then
      if m = .zero ∨ n = .zero then .nan else .signed (s != t) .infinity
    else .signed (s != t) (.nearest (m.units * n.units) unitsPerOne)
  | _, _ => .nan

/-- The whole part as a natural number below `2 ^ 64`: negative numbers and NaN give zero, and
what is too large gives the largest. -/
def truncate : Double → Nat
  | .nan => 0
  | .signed true _ => 0
  | .signed false m => min (m.units / unitsPerOne) (UInt64.size - 1)

end Double

end SvmLight
