import Mathlib.Data.EReal.Operations
import SvmLight.Proofs.Double.Rounding

/-!
# The numbers that doubles stand for

Every double but NaN stands for an extended real number, and the rank of a magnitude tells its place
among these numbers: larger ranks stand for larger numbers, infinity for the largest one.

* `Magnitude.number`, `Double.number?` — these numbers; both zeros stand for one.
* `Magnitude.number_le_iff` — **ranks are in the order of the numbers**.
-/

namespace SvmLight

theorem Double.unitsPerOne_pos : 0 < unitsPerOne := by
  obtain ⟨k, hk⟩ : ∃ k, k = 1074 := ⟨1074, rfl⟩
  rw [unitsPerOne_eq hk]
  exact Nat.two_pow_pos k

/-! ### Magnitudes -/

namespace Magnitude

theorem one_rank_le : 1023 * blockRanks ≤ infinityRank := Nat.mul_le_mul_right _ (by decide)

/-- One: 1023 blocks of magnitudes are smaller. -/
def one : Magnitude := ⟨1023 * blockRanks, one_rank_le⟩

theorem units_one : one.units = Double.unitsPerOne := by
  obtain ⟨k, hk⟩ : ∃ k, k = 1074 := ⟨1074, rfl⟩
  have hrank : one.rank = (k - 52 + 1) * blockRanks + 0 := by
    rw [hk]
    rfl
  have htwo : blockRanks = 2 ^ 52 := rfl
  have hunits : one.units = unitsOfRank one.rank := rfl
  rw [hunits, hrank, unitsOfRank_block (by decide), Nat.add_zero, htwo, ← Nat.pow_add,
    Double.unitsPerOne_eq hk, Nat.add_sub_of_le (by omega)]

/-- The real number that a finite magnitude stands for. -/
noncomputable def real (m : Magnitude) : ℝ := m.units / Double.unitsPerOne

/-- The number that a magnitude stands for. -/
noncomputable def number (m : Magnitude) : EReal := if m = infinity then ⊤ else m.real

variable {m m' : Magnitude}

theorem number_infinity : infinity.number = ⊤ := if_pos rfl

theorem number_of_ne (h : m ≠ infinity) : m.number = m.real := if_neg h

theorem cast_unitsPerOne_pos : (0 : ℝ) < Double.unitsPerOne :=
  Nat.cast_pos.2 Double.unitsPerOne_pos

theorem real_nonneg (m : Magnitude) : 0 ≤ m.real :=
  div_nonneg (Nat.cast_nonneg _) cast_unitsPerOne_pos.le

/-- A real number is the one of a finite magnitude. -/
theorem real_eq_of_number_eq {x : ℝ} (h : m.number = x) : m.real = x := by
  by_cases hm : m = infinity
  · rw [hm, number_infinity] at h
    exact absurd h.symm (EReal.coe_ne_top x)
  · rw [number_of_ne hm] at h
    exact EReal.coe_injective h

theorem real_lt (h : m.rank < m'.rank) : m.real < m'.real := by
  have hunits : m.units < m'.units := strictMono_unitsOfRank h
  exact div_lt_div_of_pos_right (Nat.cast_lt.2 hunits) cast_unitsPerOne_pos

/-- A larger rank stands for a larger number, and infinity for the largest. -/
theorem number_lt (h : m.rank < m'.rank) : m.number < m'.number := by
  have hne : m ≠ infinity := by
    rintro rfl
    exact Nat.not_lt.2 m'.rank_le h
  rw [number_of_ne hne]
  by_cases hm : m' = infinity
  · rw [hm, number_infinity]
    exact EReal.coe_lt_top _
  · rw [number_of_ne hm]
    exact EReal.coe_lt_coe_iff.2 (real_lt h)

/-- **Ranks are in the order of the numbers.** -/
theorem number_le_iff : m.number ≤ m'.number ↔ m.rank ≤ m'.rank := by
  refine ⟨?_, ?_⟩
  · intro h
    by_contra hnot
    exact not_lt.2 h (number_lt (Nat.not_le.1 hnot))
  · intro h
    rcases Nat.lt_or_eq_of_le h with hlt | heq
    · exact le_of_lt (number_lt hlt)
    · rw [eq_of_rank_eq heq]

theorem number_zero : zero.number = 0 := by
  rw [number_of_ne (by decide), real, units_zero, Nat.cast_zero, zero_div, EReal.coe_zero]

theorem number_one : one.number = 1 := by
  have hne := ne_of_gt cast_unitsPerOne_pos
  rw [number_of_ne (by decide), real, units_one, div_self hne, EReal.coe_one]

theorem number_nonneg (m : Magnitude) : 0 ≤ m.number := by
  rw [← number_zero, number_le_iff]
  exact Nat.zero_le _

end Magnitude

/-! ### Doubles -/

namespace Double

/-- The number that a double stands for, if it is one. -/
noncomputable def number? : Double → Option EReal
  | .nan => none
  | .signed true m => some (-m.number)
  | .signed false m => some m.number

/-- Only what has no sign is above zero. -/
theorem exists_of_number?_pos {x : Double} {number : EReal} (h : x.number? = some number)
    (hpos : 0 < number) : ∃ m : Magnitude, x = .signed false m ∧ m.number = number := by
  cases x with
  | nan => cases h
  | signed negative m =>
    cases negative with
    | true =>
      obtain rfl := Option.some.inj h
      exact absurd (EReal.neg_pos.1 hpos) (not_lt.2 m.number_nonneg)
    | false => exact ⟨m, rfl, Option.some.inj h⟩

theorem lt_positive (m m' : Magnitude) :
    (signed false m).lt (signed false m') = decide (m.rank < m'.rank) := by
  simp [lt, place?]

/-- Both zeros have one place. -/
theorem lt_negative (m m' : Magnitude) :
    (signed true m).lt (signed false m') = decide (0 < m.rank + m'.rank) := by
  simp only [lt, place?, decide_eq_decide]
  omega

end Double

end SvmLight
