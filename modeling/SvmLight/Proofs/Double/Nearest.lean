import Mathlib.Algebra.Ring.Nat
import SvmLight.Double.Literal
import SvmLight.Proofs.Double.Rounding

/-!
# Decimals are rounded to the nearest

A decimal is cut off where its power of ten is beyond the range of doubles, and rounded everywhere
else. Both come to the same thing: the magnitude nearest to its exact value.

* `Decimal.num`, `Decimal.den` — the exact value of a decimal.
* `units_infinity_le`, `two_mul_lt_ten_pow` — what is cut off is infinite, or less than half a unit.
* `toMagnitude_eq_iff` — **a decimal is rounded to the nearest magnitude**, and to nothing else.
* `toMagnitude_congr` — so only the exact value of a decimal matters.
-/

namespace SvmLight.Decimal

/-! ### The exact value -/

/-- The exact value of a decimal is `num / den` units. -/
def num (d : Decimal) : Nat := d.significand * 10 ^ d.exponent.toNat * Double.unitsPerOne

/-- The exact value of a decimal is `num / den` units. -/
def den (d : Decimal) : Nat := 10 ^ (-d.exponent).toNat

theorem den_pos (d : Decimal) : 0 < d.den := Nat.pow_pos (by decide)

theorem num_ofNat (n e : Nat) : num ⟨n, .ofNat e⟩ = n * 10 ^ e * Double.unitsPerOne := rfl

theorem den_ofNat (n e : Nat) : den ⟨n, .ofNat e⟩ = 1 := by simp [den]

theorem num_negSucc (n e : Nat) : num ⟨n, .negSucc e⟩ = n * Double.unitsPerOne := by simp [num]

theorem den_negSucc (n e : Nat) : den ⟨n, .negSucc e⟩ = 10 ^ (e + 1) := rfl

/-! ### Cutting off -/

/-- A factor of ten is more than three factors of two. -/
theorem two_pow_le_ten_pow (k : Nat) : 2 ^ (3 * k) ≤ 10 ^ k :=
  calc 2 ^ (3 * k) = 8 ^ k := Nat.pow_mul 2 3 k
    _ ≤ 10 ^ k := Nat.pow_le_pow_left (by decide) k

/-- Infinity stands for `2 ^ 1024`. The exponents stay variables, so that nothing is multiplied
out. -/
theorem units_infinity {e k : Nat} (he : e = 1024) (hk : k = 1074) :
    Magnitude.infinity.units = 2 ^ e * 2 ^ k := by
  have hrank : infinityRank = (e + k - 52 + 1) * blockRanks + 0 := by
    rw [he, hk]
    rfl
  have htwo : blockRanks = 2 ^ 52 := rfl
  have hunits : Magnitude.infinity.units = unitsOfRank infinityRank := rfl
  rw [hunits, hrank, unitsOfRank_block (by decide), Nat.add_zero, htwo, ← Nat.pow_add,
    ← Nat.pow_add, Nat.add_sub_of_le (by omega)]

/-- A power of ten that is cut off is not below infinity. -/
theorem units_infinity_le {n e : Nat} (hn : n ≠ 0) (he : 342 ≤ e) :
    Magnitude.infinity.units ≤ n * 10 ^ e * Double.unitsPerOne := by
  obtain ⟨i, hi⟩ : ∃ i, i = 1024 := ⟨1024, rfl⟩
  obtain ⟨k, hk⟩ : ∃ k, k = 1074 := ⟨1074, rfl⟩
  rw [units_infinity hi hk, Double.unitsPerOne_eq hk]
  apply Nat.mul_le_mul_right
  calc 2 ^ i ≤ 2 ^ (3 * e) := Nat.pow_le_pow_right (by decide) (by omega)
    _ ≤ 10 ^ e := two_pow_le_ten_pow e
    _ ≤ n * 10 ^ e := Nat.le_mul_of_pos_left _ (Nat.pos_of_ne_zero hn)

/-- A decimal that is cut off is less than half a unit. -/
theorem two_mul_lt_ten_pow {n e : Nat} (h : n.log2 + 1076 ≤ 3 * e) :
    2 * (n * Double.unitsPerOne) < 10 ^ e := by
  obtain ⟨k, hk⟩ : ∃ k, k = 1074 := ⟨1074, rfl⟩
  have hn : n < 2 ^ (n.log2 + 1) := Nat.lt_log2_self
  rw [Double.unitsPerOne_eq hk]
  calc 2 * (n * 2 ^ k) < 2 * (2 ^ (n.log2 + 1) * 2 ^ k) := by
        apply Nat.mul_lt_mul_of_pos_left _ (by decide)
        exact Nat.mul_lt_mul_of_pos_right hn (Nat.two_pow_pos k)
    _ = 2 ^ (n.log2 + 2 + k) := by
        rw [← Nat.pow_add, ← Nat.pow_succ']
        exact congrArg (2 ^ ·) (by omega)
    _ ≤ 2 ^ (3 * e) := Nat.pow_le_pow_right (by decide) (by omega)
    _ ≤ 10 ^ e := two_pow_le_ten_pow e

/-! ### Rounding -/

theorem toMagnitude_ofNat (n e : Nat) :
    toMagnitude ⟨n, .ofNat e⟩ =
      if n = 0 then .zero else if 342 ≤ e then .infinity
      else .nearest (n * Nat.pow 10 e * Double.unitsPerOne) 1 := rfl

theorem toMagnitude_negSucc (n e : Nat) :
    toMagnitude ⟨n, .negSucc e⟩ =
      if n.log2 + 1076 ≤ 3 * (e + 1) then .zero
      else .nearest (n * Double.unitsPerOne) (Nat.pow 10 (e + 1)) := rfl

theorem isNearest_toMagnitude (d : Decimal) : d.toMagnitude.IsNearest d.num d.den := by
  obtain ⟨n, exponent⟩ := d
  cases exponent with
  | ofNat e =>
    rw [num_ofNat, den_ofNat, toMagnitude_ofNat]
    split
    · rename_i hzero
      rw [hzero, Nat.zero_mul, Nat.zero_mul]
      exact Magnitude.isNearest_zero Nat.one_pos
    · rename_i hzero
      split
      · rename_i hcut
        apply Magnitude.isNearest_infinity Nat.one_pos
        rw [Nat.mul_one]
        exact units_infinity_le hzero hcut
      · exact Magnitude.isNearest_nearest _ Nat.one_pos
  | negSucc e =>
    rw [num_negSucc, den_negSucc, toMagnitude_negSucc]
    split
    · rename_i hcut
      exact Magnitude.isNearest_zero (two_mul_lt_ten_pow hcut)
    · exact Magnitude.isNearest_nearest _ (Nat.pow_pos (by decide))

/-- **A decimal is rounded to the nearest magnitude**, also where it is cut off. -/
theorem toMagnitude_eq_iff {d : Decimal} {m : Magnitude} :
    d.toMagnitude = m ↔ m.IsNearest d.num d.den := by
  constructor
  · rintro rfl
    exact isNearest_toMagnitude d
  · exact (isNearest_toMagnitude d).eq d.den_pos

/-- Decimals of one exact value are rounded alike. -/
theorem toMagnitude_congr {d d' : Decimal} (hnum : d.num = d'.num) (hden : d.den = d'.den) :
    d.toMagnitude = d'.toMagnitude := by
  rw [toMagnitude_eq_iff, hnum, hden]
  exact isNearest_toMagnitude d'

end SvmLight.Decimal
