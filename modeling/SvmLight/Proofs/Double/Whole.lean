import SvmLight.Proofs.Double.Nearest

/-!
# Whole numbers among doubles

Whole numbers up to `2 ^ 53` are doubles, and rounding keeps the order. So a value that lies between
two of them is not rounded past either, and its whole part is rounded at most to the next one.

* `Magnitude.IsNearest.rank_le` — larger values are rounded to larger ranks.
* `Magnitude.exists_units_eq` — what has 53 binary digits at most is a magnitude; `exists_whole`
  says so of whole numbers.
* `Magnitude.le_units_nearest`, `Magnitude.units_nearest_le` — **rounding does not pass a whole
  number**.
* `Double.exists_ofNat_eq` — a whole number up to `2 ^ 53` is a double.
-/

namespace SvmLight

namespace Magnitude

variable {num num' den : Nat} {m m' : Magnitude}

/-! ### Rounding keeps the order -/

theorem units_le (h : m.rank ≤ m'.rank) : m.units ≤ m'.units := strictMono_unitsOfRank.monotone h

/-- **Larger values are rounded to larger ranks.** If the ranks were in the other order, each of the
two values would have to be on the other's side of the midpoint between them, so both would be the
midpoint; but one value is not rounded to two ranks. -/
theorem IsNearest.rank_le (hden : 0 < den) (h : m.IsNearest num den) (h' : m'.IsNearest num' den)
    (hle : num ≤ num') : m.rank ≤ m'.rank := by
  by_contra hnot
  have hrank : m'.rank < m.rank := Nat.not_le.1 hnot
  have hunits : m'.units * den < m.units * den :=
    Nat.mul_lt_mul_of_pos_right (strictMono_unitsOfRank hrank) hden
  have hdistance := h.distance_le m'
  have hdistance' := h'.distance_le m
  simp only [distance] at hdistance hdistance'
  obtain rfl : num = num' := by omega
  have hm := h.eq hden h'
  rw [hm] at hrank
  exact Nat.lt_irrefl _ hrank

/-! ### Which whole numbers are magnitudes -/

theorem exists_units_of_lt {rank : Nat} (h : rank < infinityRank) :
    ∃ m : Magnitude, m ≠ infinity ∧ m.units = unitsOfRank rank :=
  ⟨⟨rank, Nat.le_of_lt h⟩, fun heq => Nat.ne_of_lt h (congrArg Magnitude.rank heq), rfl⟩

/-- A number of 53 binary digits is a magnitude, at any scale below that of infinity. -/
theorem exists_units_block {digits scale : Nat} (hlow : blockRanks ≤ digits)
    (hhigh : digits < 2 * blockRanks) (hscale : scale + 1 < 2047) :
    ∃ m : Magnitude, m ≠ infinity ∧ m.units = digits * 2 ^ scale := by
  obtain ⟨step, rfl⟩ := Nat.exists_eq_add_of_le hlow
  have hstep : step < blockRanks := by omega
  have hrank : (scale + 1) * blockRanks + step < infinityRank :=
    calc (scale + 1) * blockRanks + step < (scale + 2) * blockRanks := by
          rw [Nat.succ_mul (scale + 1)]
          omega
      _ ≤ infinityRank := Nat.mul_le_mul_right blockRanks hscale
  obtain ⟨m, hfinite, hunits⟩ := exists_units_of_lt hrank
  exact ⟨m, hfinite, hunits.trans (unitsOfRank_block hstep)⟩

/-- A number with fewer binary digits is one, too: there are zeros to add, or it is subnormal. -/
theorem exists_units_eq {digits scale : Nat} (hdigits : digits < 2 * blockRanks)
    (hscale : scale + 1 < 2047) :
    ∃ m : Magnitude, m ≠ infinity ∧ m.units = digits * 2 ^ scale := by
  induction scale generalizing digits with
  | zero =>
    rcases Nat.lt_or_ge digits blockRanks with hlt | hge
    · have hrank : digits < infinityRank := Nat.lt_trans hlt (by decide)
      obtain ⟨m, hfinite, hunits⟩ := exists_units_of_lt hrank
      refine ⟨m, hfinite, ?_⟩
      rw [hunits, unitsOfRank_of_lt hlt, Nat.pow_zero, Nat.mul_one]
    · exact exists_units_block hge hdigits hscale
  | succ scale ih =>
    rcases Nat.lt_or_ge digits blockRanks with hlt | hge
    · have hmore : 2 * digits < 2 * blockRanks := by omega
      obtain ⟨m, hfinite, hunits⟩ := ih hmore (by omega)
      refine ⟨m, hfinite, ?_⟩
      rw [hunits, Nat.pow_succ', Nat.mul_left_comm, Nat.mul_assoc]
    · exact exists_units_block hge hdigits hscale

/-- **Whole numbers up to `2 ^ 53` are magnitudes.** -/
theorem exists_whole {n : Nat} (h : n ≤ 2 ^ 53) :
    ∃ m : Magnitude, m ≠ infinity ∧ m.units = n * Double.unitsPerOne := by
  obtain ⟨k, hk⟩ : ∃ k, k = 1074 := ⟨1074, rfl⟩
  rw [Double.unitsPerOne_eq hk]
  rcases Nat.lt_or_eq_of_le h with hlt | rfl
  · exact exists_units_eq hlt (by omega)
  · have hdigits : blockRanks < 2 * blockRanks := by decide
    have hscale : k + 1 + 1 < 2047 := by omega
    obtain ⟨m, hfinite, hunits⟩ := exists_units_eq hdigits hscale
    refine ⟨m, hfinite, hunits.trans ?_⟩
    rw [Nat.pow_succ', ← Nat.mul_assoc]
    rfl

/-! ### Rounding does not pass a whole number -/

theorem le_units_nearest {n : Nat} (hn : n ≤ 2 ^ 53) (hden : 0 < den)
    (h : n * Double.unitsPerOne * den ≤ num) :
    n * Double.unitsPerOne ≤ (nearest num den).units := by
  obtain ⟨m, -, hunits⟩ := exists_whole hn
  rw [← hunits] at h ⊢
  exact units_le ((isNearest_units m hden).rank_le hden (isNearest_nearest num hden) h)

theorem units_nearest_le {n : Nat} (hn : n ≤ 2 ^ 53) (hden : 0 < den)
    (h : num ≤ n * Double.unitsPerOne * den) :
    (nearest num den).units ≤ n * Double.unitsPerOne := by
  obtain ⟨m, -, hunits⟩ := exists_whole hn
  rw [← hunits] at h ⊢
  exact units_le ((isNearest_nearest num hden).rank_le hden (isNearest_units m hden) h)

end Magnitude

/-- **A whole number up to `2 ^ 53` is a double.** -/
theorem Double.exists_ofNat_eq {n : Nat} (h : n ≤ 2 ^ 53) :
    ∃ m : Magnitude, m ≠ .infinity ∧ m.units = n * unitsPerOne ∧ ofNat n = .signed false m := by
  obtain ⟨m, hfinite, hunits⟩ := Magnitude.exists_whole h
  refine ⟨m, hfinite, hunits, ?_⟩
  have hnearest := Magnitude.isNearest_units m Nat.one_pos
  rw [hunits, Nat.mul_one, ← Magnitude.nearest_eq_iff Nat.one_pos] at hnearest
  rw [ofNat, hnearest]

end SvmLight
