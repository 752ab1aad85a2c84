import Mathlib.Algebra.Ring.Nat
import Mathlib.Order.Monotone.Basic
import SvmLight.Double.Rounding

/-!
# Rounding to the nearest

The nearest magnitude is said without the steps that find it: none is nearer, and of two that are as
near it is the even one. There is only one like this, so this is all there is to say about rounding.

* `lt_or_exists_block`, `lt_or_exists_step` — a rank is subnormal, or it is in a block; a number of
  units is subnormal, or it is in a step of a block.
* `strictMono_unitsOfRank` — larger ranks have larger values.
* `unitsOfRank_floorRank_le`, `lt_unitsOfRank_floorRank_succ` — a value lies between the rank that
  it is rounded down to and the next.
* `Magnitude.IsNearest` — a magnitude such that none is nearer, and none as near unless it is even.
* `Magnitude.nearest_eq_iff` — **rounding gives the nearest magnitude**, and nothing else is one.
-/

namespace SvmLight

/-! ### Blocks -/

/-- A rank is subnormal, or it is in a block. -/
theorem lt_or_exists_block (rank : Nat) :
    rank < blockRanks ∨ ∃ k step, step < blockRanks ∧ rank = (k + 1) * blockRanks + step := by
  rcases Nat.lt_or_ge rank blockRanks with hlt | hge
  · exact .inl hlt
  · right
    have hpos : 0 < rank / blockRanks := Nat.div_pos hge (by decide)
    refine ⟨rank / blockRanks - 1, rank % blockRanks, Nat.mod_lt _ (by decide), ?_⟩
    rw [Nat.sub_add_cancel hpos, Nat.mul_comm]
    exact (Nat.div_add_mod _ _).symm

theorem unitsOfRank_of_lt {rank : Nat} (h : rank < blockRanks) : unitsOfRank rank = rank := by
  rw [unitsOfRank, Nat.div_eq_of_lt h, Nat.mod_eq_of_lt h]
  rfl

/-- Each block counts in steps twice as large as the block before. -/
theorem unitsOfRank_block {k step : Nat} (h : step < blockRanks) :
    unitsOfRank ((k + 1) * blockRanks + step) = (blockRanks + step) * 2 ^ k := by
  have hblock : ((k + 1) * blockRanks + step) / blockRanks = k + 1 := by
    rw [Nat.mul_comm, Nat.mul_add_div (by decide), Nat.div_eq_of_lt h, Nat.add_zero]
  have hstep : ((k + 1) * blockRanks + step) % blockRanks = step := by
    rw [Nat.mul_comm, Nat.mul_add_mod, Nat.mod_eq_of_lt h]
  rw [unitsOfRank, hblock, hstep, Nat.add_sub_cancel, Nat.shiftLeft_eq]
  rfl

/-! ### Rounding down -/

theorem floorRank_of_lt {q : Nat} (h : q < blockRanks) : floorRank q = q := by
  have hlog : q.log2 - 52 = 0 := by
    rcases Nat.eq_zero_or_pos q with rfl | hpos
    · rfl
    · have : q.log2 < 52 := (Nat.log2_lt (Nat.ne_of_gt hpos)).2 h
      omega
  rw [floorRank, hlog, Nat.zero_mul, Nat.zero_add]
  rfl

/-- What is less than a step of the block is dropped. -/
theorem floorRank_block {k step rest : Nat} (h : step < blockRanks) (hrest : rest < 2 ^ k) :
    floorRank ((blockRanks + step) * 2 ^ k + rest) = (k + 1) * blockRanks + step := by
  have hlog : ((blockRanks + step) * 2 ^ k + rest).log2 = 52 + k := by
    have hlow : 2 ^ (52 + k) = blockRanks * 2 ^ k := Nat.pow_add 2 52 k
    have hhigh : 2 ^ (52 + k + 1) = (blockRanks + blockRanks) * 2 ^ k := by
      rw [Nat.pow_succ, hlow, Nat.mul_two, Nat.add_mul]
    have hfirst : blockRanks * 2 ^ k ≤ (blockRanks + step) * 2 ^ k :=
      Nat.mul_le_mul_right _ (Nat.le_add_right _ _)
    have hlast : (blockRanks + step + 1) * 2 ^ k ≤ (blockRanks + blockRanks) * 2 ^ k :=
      Nat.mul_le_mul_right _ (Nat.add_le_add_left h _)
    have hpos : 0 < blockRanks * 2 ^ k := Nat.mul_pos (by decide) (Nat.two_pow_pos k)
    rw [Nat.succ_mul] at hlast
    rw [Nat.log2_eq_iff (by omega), hlow, hhigh]
    exact ⟨by omega, by omega⟩
  rw [floorRank, hlog, Nat.add_sub_cancel_left, Nat.shiftRight_eq_div_pow, Nat.mul_comm _ (2 ^ k),
    Nat.mul_add_div (Nat.two_pow_pos k), Nat.div_eq_of_lt hrest, Nat.add_zero, Nat.succ_mul,
    Nat.add_assoc]

/-! ### The next rank -/

/-- The next rank is one step further, also where it is the first one of the next block. -/
theorem unitsOfRank_block_succ {k step : Nat} (h : step < blockRanks) :
    unitsOfRank ((k + 1) * blockRanks + step + 1) = (blockRanks + step + 1) * 2 ^ k := by
  rcases Nat.lt_or_ge (step + 1) blockRanks with hnext | hnext
  · rw [Nat.add_assoc, unitsOfRank_block hnext, Nat.add_assoc]
  · have hfirst : (k + 1) * blockRanks + step + 1 = (k + 1 + 1) * blockRanks + 0 := by
      rw [Nat.succ_mul (k + 1)]
      omega
    have hlast : blockRanks + step + 1 = blockRanks * 2 := by omega
    rw [hfirst, unitsOfRank_block (by decide), hlast, Nat.pow_succ, Nat.mul_comm (2 ^ k) 2,
      Nat.mul_assoc, Nat.add_zero]

theorem unitsOfRank_lt_succ (rank : Nat) : unitsOfRank rank < unitsOfRank (rank + 1) := by
  rcases lt_or_exists_block rank with hlt | ⟨k, step, hstep, rfl⟩
  · rw [unitsOfRank_of_lt hlt]
    rcases Nat.lt_or_ge (rank + 1) blockRanks with hnext | hnext
    · rw [unitsOfRank_of_lt hnext]
      exact Nat.lt_succ_self rank
    · have hfirst : rank + 1 = (0 + 1) * blockRanks + 0 := by omega
      rw [hfirst, unitsOfRank_block (by decide)]
      omega
  · rw [unitsOfRank_block hstep, unitsOfRank_block_succ hstep]
    exact Nat.mul_lt_mul_of_pos_right (Nat.lt_succ_self _) (Nat.two_pow_pos k)

/-- **Larger ranks have larger values.** -/
theorem strictMono_unitsOfRank : StrictMono unitsOfRank :=
  strictMono_nat_of_lt_succ unitsOfRank_lt_succ

/-! ### Where a value lies -/

/-- A number of units is subnormal, or it is in a step of a block. -/
theorem lt_or_exists_step (q : Nat) :
    q < blockRanks ∨ ∃ k step rest, step < blockRanks ∧ rest < 2 ^ k ∧
      q = (blockRanks + step) * 2 ^ k + rest := by
  rcases Nat.lt_or_ge q blockRanks with hlt | hge
  · exact .inl hlt
  · right
    have hne : q ≠ 0 := Nat.ne_of_gt (Nat.lt_of_lt_of_le (by decide) hge)
    have hlog : 52 ≤ q.log2 := (Nat.le_log2 hne).2 hge
    obtain ⟨k, hk⟩ := Nat.exists_eq_add_of_le hlog
    obtain ⟨hlow, hhigh⟩ := (Nat.log2_eq_iff hne).1 hk
    rw [Nat.pow_succ, Nat.pow_add, Nat.mul_right_comm] at hhigh
    rw [Nat.pow_add] at hlow
    have hpos : 0 < 2 ^ k := Nat.two_pow_pos k
    have hfirst : blockRanks ≤ q / 2 ^ k := (Nat.le_div_iff_mul_le hpos).2 hlow
    have hlast : q / 2 ^ k < blockRanks * 2 := (Nat.div_lt_iff_lt_mul hpos).2 hhigh
    refine ⟨k, q / 2 ^ k - blockRanks, q % 2 ^ k, by omega, Nat.mod_lt _ hpos, ?_⟩
    rw [Nat.add_sub_of_le hfirst, Nat.mul_comm, Nat.div_add_mod]

/-- A value is not below the rank that it is rounded down to. -/
theorem unitsOfRank_floorRank_le (q : Nat) : unitsOfRank (floorRank q) ≤ q := by
  rcases lt_or_exists_step q with hlt | ⟨k, step, rest, hstep, hrest, rfl⟩
  · rw [floorRank_of_lt hlt, unitsOfRank_of_lt hlt]
  · rw [floorRank_block hstep hrest, unitsOfRank_block hstep]
    exact Nat.le_add_right _ rest

/-- It is below the next rank. -/
theorem lt_unitsOfRank_floorRank_succ (q : Nat) : q < unitsOfRank (floorRank q + 1) := by
  rcases lt_or_exists_step q with hlt | ⟨k, step, rest, hstep, hrest, rfl⟩
  · have hnext := unitsOfRank_lt_succ q
    rw [unitsOfRank_of_lt hlt] at hnext
    rw [floorRank_of_lt hlt]
    exact hnext
  · rw [floorRank_block hstep hrest, unitsOfRank_block_succ hstep, Nat.succ_mul]
    exact Nat.add_lt_add_left hrest _

/-! ### The nearest rank -/

/-- How far `num / den` is from a number of units, counted in parts of a unit of which `den` make
one. -/
def distance (num den units : Nat) : Nat := (num - units * den) + (units * den - num)

/-- The definition, as an equation between functions. Between numbers it would be true by definition
as well, but then the kernel begins to divide them. -/
theorem nearestRank_def : nearestRank = fun num den =>
    let low := floorRank (num / den)
    let midpoint := (unitsOfRank low + unitsOfRank (low + 1)) * den
    match compare (2 * num) midpoint with
    | .lt => low
    | .gt => low + 1
    | .eq => if low % 2 = 0 then low else low + 1 := rfl

/-- A value lies between two ranks. The lower one is the nearest up to the midpoint, the upper one
from the midpoint on, and at the midpoint the even one. -/
theorem exists_nearestRank (num : Nat) {den : Nat} (hden : 0 < den) :
    ∃ low, unitsOfRank low * den ≤ num ∧ num < unitsOfRank (low + 1) * den ∧
      (nearestRank num den = low ∧
          2 * num ≤ unitsOfRank low * den + unitsOfRank (low + 1) * den ∧
          (2 * num = unitsOfRank low * den + unitsOfRank (low + 1) * den → low % 2 = 0) ∨
        nearestRank num den = low + 1 ∧
          unitsOfRank low * den + unitsOfRank (low + 1) * den ≤ 2 * num ∧
          (2 * num = unitsOfRank low * den + unitsOfRank (low + 1) * den → low % 2 = 1)) := by
  refine ⟨floorRank (num / den), ?_, ?_, ?_⟩
  · exact (Nat.le_div_iff_mul_le hden).1 (unitsOfRank_floorRank_le _)
  · exact (Nat.div_lt_iff_lt_mul hden).1 (lt_unitsOfRank_floorRank_succ _)
  · rw [nearestRank_def, ← Nat.add_mul]
    dsimp only
    split
    · rename_i hlt
      rw [Nat.compare_eq_lt] at hlt
      exact .inl ⟨rfl, Nat.le_of_lt hlt, fun htie => absurd htie (Nat.ne_of_lt hlt)⟩
    · rename_i hgt
      rw [Nat.compare_eq_gt] at hgt
      exact .inr ⟨rfl, Nat.le_of_lt hgt, fun htie => absurd htie (Nat.ne_of_gt hgt)⟩
    · rename_i htie
      rw [Nat.compare_eq_eq] at htie
      split
      · rename_i heven
        exact .inl ⟨rfl, Nat.le_of_eq htie, fun _ => heven⟩
      · rename_i hodd
        exact .inr ⟨rfl, Nat.le_of_eq htie.symm, fun _ => Nat.mod_two_ne_zero.1 hodd⟩

/-- No rank is between two ranks next to each other. -/
theorem units_mul_le_or_ge {den : Nat} (hden : 0 < den) (low rank : Nat) :
    (unitsOfRank rank * den ≤ unitsOfRank low * den ∧
        (unitsOfRank rank * den = unitsOfRank low * den → rank = low)) ∨
      (unitsOfRank (low + 1) * den ≤ unitsOfRank rank * den ∧
        (unitsOfRank rank * den = unitsOfRank (low + 1) * den → rank = low + 1)) := by
  have hinj : ∀ {i j}, unitsOfRank i * den = unitsOfRank j * den → i = j :=
    fun h => strictMono_unitsOfRank.injective (Nat.eq_of_mul_eq_mul_right hden h)
  rcases Nat.lt_or_ge low rank with hgt | hle
  · exact .inr ⟨Nat.mul_le_mul_right _ (strictMono_unitsOfRank.monotone hgt), hinj⟩
  · exact .inl ⟨Nat.mul_le_mul_right _ (strictMono_unitsOfRank.monotone hle), hinj⟩

/-- No rank is nearer than the nearest one, which is even if another one is as near. -/
theorem distance_nearestRank (num : Nat) {den : Nat} (hden : 0 < den) (rank : Nat) :
    distance num den (unitsOfRank (nearestRank num den)) ≤ distance num den (unitsOfRank rank) ∧
      (rank ≠ nearestRank num den →
        distance num den (unitsOfRank rank) =
          distance num den (unitsOfRank (nearestRank num den)) →
        nearestRank num den % 2 = 0) := by
  obtain ⟨low, hlow, hhigh, hnearest⟩ := exists_nearestRank num hden
  have hrank := units_mul_le_or_ge hden low rank
  simp only [distance]
  rcases hnearest with ⟨hnearest, hmid, htie⟩ | ⟨hnearest, hmid, htie⟩
  · rw [hnearest]
    omega
  · rw [hnearest]
    omega

/-! ### The nearest magnitude -/

namespace Magnitude

/-- A magnitude nearest to `num / den` units; if there are two, the one of even rank. -/
structure IsNearest (num den : Nat) (m : Magnitude) : Prop where
  /-- no magnitude is nearer -/
  distance_le : ∀ m' : Magnitude, distance num den m.units ≤ distance num den m'.units
  /-- of two that are as near it is the even one -/
  even_of_tie : ∀ m' : Magnitude, m' ≠ m →
    distance num den m'.units = distance num den m.units → m.rank % 2 = 0

variable {num den : Nat} {m m' : Magnitude}

theorem eq_of_rank_eq (h : m.rank = m'.rank) : m = m' := by
  cases m
  cases m'
  cases h
  rfl

theorem units_zero : zero.units = 0 := unitsOfRank_of_lt (by decide)

/-- Only zero has no units. -/
theorem units_pos (h : m ≠ zero) : 0 < m.units := by
  have hrank : zero.rank < m.rank := Nat.pos_of_ne_zero fun heq => h (eq_of_rank_eq heq)
  have hunits : zero.units < m.units := strictMono_unitsOfRank hrank
  rwa [units_zero] at hunits

/-- A magnitude is the nearest one if it is nearer than all others. -/
theorem isNearest_of_lt
    (h : ∀ m' : Magnitude, m' ≠ m → distance num den m.units < distance num den m'.units) :
    m.IsNearest num den where
  distance_le := by
    intro m'
    by_cases hm : m' = m
    · rw [hm]
    · exact Nat.le_of_lt (h m' hm)
  even_of_tie := by
    intro m' hm htie
    exact absurd htie (Nat.ne_of_gt (h m' hm))

/-- Less than half a unit is nearest to zero. -/
theorem isNearest_zero (h : 2 * num < den) : zero.IsNearest num den := by
  apply isNearest_of_lt
  intro m hm
  have hunits : 1 * den ≤ m.units * den := Nat.mul_le_mul_right den (units_pos hm)
  simp only [distance, units_zero]
  omega

/-- From infinity on infinity is nearest. -/
theorem isNearest_infinity (hden : 0 < den) (h : infinity.units * den ≤ num) :
    infinity.IsNearest num den := by
  apply isNearest_of_lt
  intro m hm
  have hrank : m.rank < infinity.rank :=
    Nat.lt_of_le_of_ne m.rank_le fun heq => hm (eq_of_rank_eq heq)
  have hunits : m.units * den < infinity.units * den :=
    Nat.mul_lt_mul_of_pos_right (strictMono_unitsOfRank hrank) hden
  simp only [distance]
  omega

/-- What a magnitude stands for is nearest to it. -/
theorem isNearest_units (m : Magnitude) (hden : 0 < den) : m.IsNearest (m.units * den) den := by
  apply isNearest_of_lt
  intro m' hm
  have hrank : m'.rank ≠ m.rank := fun heq => hm (eq_of_rank_eq heq)
  have hunits : m'.units * den ≠ m.units * den := fun heq =>
    hrank (strictMono_unitsOfRank.injective (Nat.eq_of_mul_eq_mul_right hden heq))
  simp only [distance]
  omega

theorem isNearest_nearest (num : Nat) (hden : 0 < den) : (nearest num den).IsNearest num den := by
  rcases Nat.lt_or_ge infinityRank (nearestRank num den) with hlt | hle
  · have hnearest : nearest num den = .infinity := by
      apply eq_of_rank_eq
      exact Nat.min_eq_right (Nat.le_of_lt hlt)
    rw [hnearest]
    apply isNearest_infinity hden
    obtain ⟨low, hlow, -, hrank⟩ := exists_nearestRank num hden
    have hle : infinityRank ≤ low := by omega
    exact Nat.le_trans (Nat.mul_le_mul_right _ (strictMono_unitsOfRank.monotone hle)) hlow
  · have hnearest : nearest num den = ⟨nearestRank num den, hle⟩ := by
      apply eq_of_rank_eq
      exact Nat.min_eq_left hle
    rw [hnearest]
    constructor
    · intro m
      exact (distance_nearestRank num hden m.rank).1
    · intro m hm htie
      exact (distance_nearestRank num hden m.rank).2 (fun heq => hm (eq_of_rank_eq heq)) htie

/-- Between two even ranks there is another one, which would be nearer. -/
theorem IsNearest.not_rank_lt (hden : 0 < den) (h : m.IsNearest num den)
    (h' : m'.IsNearest num den) : ¬m.rank < m'.rank := by
  intro hlt
  have htie : distance num den m.units = distance num den m'.units :=
    Nat.le_antisymm (h.distance_le m') (h'.distance_le m)
  have heven := h.even_of_tie m' (fun heq => by simp [heq] at hlt) htie.symm
  have heven' := h'.even_of_tie m (fun heq => by simp [heq] at hlt) htie
  let between : Magnitude := ⟨m.rank + 1, Nat.le_trans hlt m'.rank_le⟩
  have hlow : m.units * den < between.units * den :=
    Nat.mul_lt_mul_of_pos_right (unitsOfRank_lt_succ _) hden
  have hhigh : between.units * den < m'.units * den := by
    have hrank : between.rank < m'.rank := by
      show m.rank + 1 < m'.rank
      omega
    exact Nat.mul_lt_mul_of_pos_right (strictMono_unitsOfRank hrank) hden
  have hle := h.distance_le between
  simp only [distance] at htie hle
  omega

/-- There is only one nearest magnitude. -/
theorem IsNearest.eq (hden : 0 < den) (h : m.IsNearest num den) (h' : m'.IsNearest num den) :
    m = m' :=
  eq_of_rank_eq (Nat.le_antisymm (Nat.not_lt.1 (h'.not_rank_lt hden h))
    (Nat.not_lt.1 (h.not_rank_lt hden h')))

/-- **Rounding gives the nearest magnitude**, and nothing else is one. -/
theorem nearest_eq_iff (hden : 0 < den) : nearest num den = m ↔ m.IsNearest num den := by
  constructor
  · rintro rfl
    exact isNearest_nearest num hden
  · exact (isNearest_nearest num hden).eq hden

theorem nearest_zero (hden : 0 < den) : nearest 0 den = .zero :=
  (nearest_eq_iff hden).2 (isNearest_zero hden)

end Magnitude

/-- The number of units that make one, with the exponent as a variable, so that nothing is
multiplied out. -/
theorem Double.unitsPerOne_eq {k : Nat} (hk : k = 1074) : unitsPerOne = 2 ^ k := by
  rw [unitsPerOne, ← hk, Nat.one_shiftLeft]

end SvmLight
