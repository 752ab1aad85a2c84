import SvmLight.Double.Shortest
import SvmLight.Proofs.Double.Nearest
import SvmLight.Proofs.Numeral

/-!
# Shortest digits read back

The digits that a double is written with are read as that double again. The search for them is not
looked into: whatever it returns has been read back before, and the power at which it ends has the
exact value of the magnitude.

* `toMagnitude_decimalUnits` — the exact value of a magnitude is rounded to it.
* `toMagnitude_shortest` — and so is what the search comes to.
-/

namespace SvmLight

namespace Magnitude

variable {m : Magnitude}

/-! ### The exact value -/

/-- Fives and twos make tens. The power stays a variable, so that nothing is multiplied out. -/
theorem toMagnitude_fives {e k : Nat} (hk : k = e + 1) (hone : Double.unitsPerOne = 2 ^ k) :
    Decimal.toMagnitude ⟨m.units * Nat.pow 5 k, .negSucc e⟩ = m := by
  subst hk
  have htens : m.units * Nat.pow 5 (e + 1) * 2 ^ (e + 1) = m.units * 10 ^ (e + 1) := by
    rw [Nat.mul_assoc]
    exact congrArg (m.units * ·) (Nat.mul_pow 5 2 (e + 1)).symm
  rw [Decimal.toMagnitude_eq_iff, Decimal.num_negSucc, Decimal.den_negSucc, hone, htens]
  exact isNearest_units m (Nat.pow_pos (by decide))

/-- **The exact value of a magnitude is rounded to it.** -/
theorem toMagnitude_decimalUnits (m : Magnitude) :
    Decimal.toMagnitude ⟨m.decimalUnits, -1074⟩ = m := by
  obtain ⟨k, hk⟩ : ∃ k, k = 1074 := ⟨1074, rfl⟩
  have hunits : m.decimalUnits = m.units * Nat.pow 5 k := by rw [decimalUnits, ← hk]
  have hexponent : (-1074 : Int) = .negSucc 1073 := rfl
  rw [hunits, hexponent]
  exact toMagnitude_fives hk (Double.unitsPerOne_eq hk)

/-! ### The search -/

/-- A hit reads back. -/
theorem toMagnitude_of_multipleAt {power : Nat} {d : Decimal} (h : m.multipleAt power = some d) :
    d.toMagnitude = m := by
  rw [multipleAt] at h
  split at h
  · rename_i hlower hupper
    cases h
    split
    · exact eq_of_beq hlower
    · exact eq_of_beq hupper
  · rename_i hlower hupper
    cases h
    exact eq_of_beq hlower
  · rename_i hlower hupper
    cases h
    exact eq_of_beq hupper
  · cases h

theorem toMagnitude_shortestUpTo (m : Magnitude) (power : Nat) :
    (m.shortestUpTo power).toMagnitude = m := by
  induction power with
  | zero => exact toMagnitude_decimalUnits m
  | succ power ih =>
    rw [shortestUpTo]
    cases hhit : m.multipleAt (power + 1) with
    | none => exact ih
    | some d => exact toMagnitude_of_multipleAt hhit

/-- **The shortest digits read back.** -/
theorem toMagnitude_shortest (m : Magnitude) : m.shortest.toMagnitude = m :=
  toMagnitude_shortestUpTo m m.firstPower

end Magnitude

end SvmLight
