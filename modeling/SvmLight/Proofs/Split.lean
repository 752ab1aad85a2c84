import Mathlib.Algebra.Order.Archimedean.Real.Basic
import SvmLight.Proofs.Double.Number
import SvmLight.Proofs.Double.Whole
import SvmLight.Split

/-!
# Holding out a share

How many elements a share makes up is computed with doubles, so the exact product is rounded. But
no whole number is passed by rounding, and the order is kept: the count lies between the whole
numbers around the exact product, never exceeds the number of elements, and does not become smaller
if the share becomes larger.

* `Split.counted` — the magnitude that a share counts as.
* `Split.heldOut_eq` — the count is a rounded product with this magnitude.
* `Split.le_portion`, `Split.portion_le`, `Split.portion_mono` — where that product lies.
* `Split.MakesUp` — how many elements a share makes up, by the number that it stands for.
* `Split.ofShare_partition` — **a share cuts a list in two**, monotonically.
-/

namespace SvmLight

namespace Split

open Double (unitsPerOne unitsPerOne_pos)

variable {total count : Nat} {m m' : Magnitude} {share share' : Double}

/-! ### The rounded product -/

/-- The whole part of a product that is rounded to a magnitude. -/
def portion (total : Nat) (m : Magnitude) : Nat :=
  (Magnitude.nearest (total * unitsPerOne * m.units) unitsPerOne).units / unitsPerOne

theorem le_portion (hcount : count ≤ 2 ^ 53) (h : count * unitsPerOne ≤ total * m.units) :
    count ≤ portion total m := by
  rw [portion, Nat.le_div_iff_mul_le unitsPerOne_pos]
  apply Magnitude.le_units_nearest hcount unitsPerOne_pos
  rw [Nat.mul_right_comm total]
  exact Nat.mul_le_mul_right _ h

theorem portion_le (hcount : count ≤ 2 ^ 53) (h : total * m.units ≤ count * unitsPerOne) :
    portion total m ≤ count := by
  rw [portion]
  apply Nat.div_le_of_le_mul
  rw [Nat.mul_comm unitsPerOne]
  apply Magnitude.units_nearest_le hcount unitsPerOne_pos
  rw [Nat.mul_right_comm total]
  exact Nat.mul_le_mul_right _ h

/-- **A larger share makes up no less.** -/
theorem portion_mono (total : Nat) (h : m.rank ≤ m'.rank) : portion total m ≤ portion total m' := by
  have hproduct : total * unitsPerOne * m.units ≤ total * unitsPerOne * m'.units :=
    Nat.mul_le_mul_left _ (Magnitude.units_le h)
  apply Nat.div_le_div_right
  apply Magnitude.units_le
  exact (Magnitude.isNearest_nearest _ unitsPerOne_pos).rank_le unitsPerOne_pos
    (Magnitude.isNearest_nearest _ unitsPerOne_pos) hproduct

theorem portion_zero (total : Nat) : portion total .zero = 0 := by
  apply Nat.eq_zero_of_le_zero
  apply portion_le (Nat.zero_le _)
  rw [Magnitude.units_zero, Nat.mul_zero]
  exact Nat.zero_le _

theorem portion_one (h : total ≤ 2 ^ 53) : portion total .one = total := by
  have hproduct : total * Magnitude.one.units = total * unitsPerOne := by rw [Magnitude.units_one]
  exact Nat.le_antisymm (portion_le h (Nat.le_of_eq hproduct))
    (le_portion h (Nat.le_of_eq hproduct.symm))

/-! ### What a share counts as -/

/-- The magnitude that a share counts as: zero if it is no number or below zero, and one if it is
above one. -/
def counted : Double → Magnitude
  | .nan => .zero
  | .signed true _ => .zero
  | .signed false m => if Magnitude.one.rank < m.rank then .one else m

theorem counted_of_le (h : m.rank ≤ Magnitude.one.rank) : counted (.signed false m) = m :=
  if_neg (Nat.not_lt.2 h)

theorem counted_of_ge (h : Magnitude.one.rank ≤ m.rank) : counted (.signed false m) = .one := by
  rcases Nat.lt_or_eq_of_le h with hlt | heq
  · exact if_pos hlt
  · rw [Magnitude.eq_of_rank_eq heq.symm]
    exact counted_of_le (Nat.le_refl _)

theorem counted_rank_le (share : Double) : (counted share).rank ≤ Magnitude.one.rank := by
  rw [counted.eq_def]
  split
  · exact Nat.zero_le _
  · exact Nat.zero_le _
  · split
    · exact Nat.le_refl _
    · rename_i hnot
      exact Nat.not_lt.1 hnot

/-- **No share makes up more than there is.** -/
theorem portion_counted_le (h : total ≤ 2 ^ 53) (share : Double) :
    portion total (counted share) ≤ total :=
  (portion_mono total (counted_rank_le share)).trans_eq (portion_one h)

/-- A share is moved into the range from zero to one. What was below it may keep its sign, but is
zero then. -/
theorem exists_clamp (h : share ≠ .nan) :
    ∃ negative, Double.clamp .zero .one share = .signed negative (counted share) ∧
      (negative = true → counted share = .zero) := by
  have hone : Double.one = .signed false .one := rfl
  have hzero : Double.zero = .signed false .zero := rfl
  rw [Double.clamp, hone, hzero]
  cases share with
  | nan => exact absurd rfl h
  | signed negative m =>
    cases negative with
    | true =>
      rw [Double.lt_negative]
      by_cases hm : 0 < m.rank
      · refine ⟨false, ?_, fun _ => rfl⟩
        have hrank : 0 < m.rank + Magnitude.zero.rank := hm
        rw [decide_eq_true hrank]
        rfl
      · have hm' : m = .zero := Magnitude.eq_of_rank_eq (Nat.eq_zero_of_not_pos hm)
        refine ⟨true, ?_, fun _ => rfl⟩
        rw [hm']
        rfl
    | false =>
      refine ⟨false, ?_, Bool.false_ne_true.elim⟩
      have hlow : ¬m.rank < Magnitude.zero.rank := Nat.not_lt_zero _
      rw [Double.lt_positive, decide_eq_false hlow, if_neg Bool.false_ne_true,
        Double.lt_positive]
      rcases Nat.lt_or_ge Magnitude.one.rank m.rank with habove | hbelow
      · rw [if_pos (decide_eq_true habove), counted_of_ge (Nat.le_of_lt habove)]
      · rw [if_neg (mt of_decide_eq_true (Nat.not_lt.2 hbelow)), counted_of_le hbelow]

theorem counted_ne_infinity (share : Double) : counted share ≠ .infinity := by
  intro h
  have hrank := counted_rank_le share
  rw [h] at hrank
  exact absurd hrank (by decide)

/-- A whole number is multiplied exactly, and the product is rounded. -/
theorem mul_ofNat (h : total ≤ 2 ^ 53) (negative : Bool) (hm : m ≠ .infinity) :
    (Double.ofNat total).mul (.signed negative m) =
      .signed negative (.nearest (total * unitsPerOne * m.units) unitsPerOne) := by
  obtain ⟨whole, hwhole, hunits, htotal⟩ := Double.exists_ofNat_eq h
  rw [htotal, Double.mul, if_neg (not_or.2 ⟨hwhole, hm⟩), hunits, Bool.false_bne]

/-- **The count is a rounded product.** -/
theorem heldOut_eq (h : total ≤ 2 ^ 53) (share : Double) :
    heldOut total share = portion total (counted share) := by
  rw [heldOut]
  by_cases hnan : share = .nan
  · rw [hnan, counted, portion_zero]
    rfl
  · obtain ⟨negative, hclamp, hzero⟩ := exists_clamp hnan
    rw [hclamp, mul_ofNat h negative (counted_ne_infinity share)]
    cases negative with
    | true =>
      rw [hzero rfl, portion_zero]
      rfl
    | false =>
      have hle : portion total (counted share) ≤ UInt64.size - 1 :=
        (portion_counted_le h share).trans (h.trans (by decide))
      exact Nat.min_eq_left hle

/-! ### The exact product -/

/-- How many of `total` elements a share makes up, by the number that it stands for. -/
structure MakesUp (total : Nat) (share : Double) (count : Nat) : Prop where
  /-- what is no number makes up nothing -/
  nan : share = .nan → count = 0
  /-- nor does a number that is not above zero -/
  nothing : ∀ x, share.number? = some x → x ≤ 0 → count = 0
  /-- one makes up everything, and what is above one does, too -/
  all : ∀ x, share.number? = some x → 1 ≤ x → count = total
  /-- in between it is one of the whole numbers around the exact product -/
  part : ∀ x : ℝ, share.number? = some (x : EReal) → 0 < x → x < 1 →
    ⌊total * x⌋₊ ≤ count ∧ count ≤ ⌈total * x⌉₊

/-- Whole numbers are compared with the exact product by their units. -/
theorem natCast_le_mul_real : (count : ℝ) ≤ total * m.real ↔
    count * unitsPerOne ≤ total * m.units := by
  rw [Magnitude.real, ← mul_div_assoc, le_div_iff₀ Magnitude.cast_unitsPerOne_pos]
  exact_mod_cast Iff.rfl

theorem mul_real_le_natCast : total * m.real ≤ (count : ℝ) ↔
    total * m.units ≤ count * unitsPerOne := by
  rw [Magnitude.real, ← mul_div_assoc, div_le_iff₀ Magnitude.cast_unitsPerOne_pos]
  exact_mod_cast Iff.rfl

/-- **Rounding leaves the product between the whole numbers around it.** -/
theorem portion_between (h : total ≤ 2 ^ 53) (hone : m.real ≤ 1) :
    ⌊total * m.real⌋₊ ≤ portion total m ∧ portion total m ≤ ⌈total * m.real⌉₊ := by
  have hproduct : total * m.real ≤ total := mul_le_of_le_one_right (Nat.cast_nonneg _) hone
  refine ⟨?_, ?_⟩
  · apply le_portion ((Nat.floor_le_of_le hproduct).trans h)
    rw [← natCast_le_mul_real]
    exact Nat.floor_le (mul_nonneg (Nat.cast_nonneg _) m.real_nonneg)
  · apply portion_le ((Nat.ceil_le.2 hproduct).trans h)
    rw [← mul_real_le_natCast]
    exact Nat.le_ceil _

theorem counted_of_nonpos {x : EReal} (hx : share.number? = some x) (h : x ≤ 0) :
    counted share = .zero := by
  cases share with
  | nan => rfl
  | signed negative m =>
    cases negative with
    | true => rfl
    | false =>
      obtain rfl := Option.some.inj hx
      rw [← Magnitude.number_zero, Magnitude.number_le_iff] at h
      obtain rfl : m = .zero := Magnitude.eq_of_rank_eq (Nat.eq_zero_of_le_zero h)
      exact counted_of_le (Nat.zero_le _)

/-- **How many elements a share makes up.** -/
theorem makesUp_heldOut (h : total ≤ 2 ^ 53) (share : Double) :
    MakesUp total share (heldOut total share) := by
  rw [heldOut_eq h]
  refine ⟨?_, ?_, ?_, ?_⟩
  · rintro rfl
    exact portion_zero total
  · intro x hx hle
    rw [counted_of_nonpos hx hle]
    exact portion_zero total
  · intro x hx hge
    obtain ⟨m, rfl, rfl⟩ := Double.exists_of_number?_pos hx (zero_lt_one.trans_le hge)
    rw [← Magnitude.number_one, Magnitude.number_le_iff] at hge
    rw [counted_of_ge hge]
    exact portion_one h
  · intro x hx hpos hlt
    obtain ⟨m, rfl, hm⟩ := Double.exists_of_number?_pos hx (EReal.coe_pos.2 hpos)
    obtain rfl : m.real = x := m.real_eq_of_number_eq hm
    have hrank : m.rank ≤ Magnitude.one.rank := by
      rw [← Magnitude.number_le_iff, hm, Magnitude.number_one]
      exact EReal.coe_le_coe_iff.2 hlt.le
    rw [counted_of_le hrank]
    exact portion_between h hlt.le

/-- **A larger share counts as no less.** -/
theorem counted_mono {x y : EReal} (hx : share.number? = some x) (hy : share'.number? = some y)
    (hle : x ≤ y) : (counted share).rank ≤ (counted share').rank := by
  rcases le_or_gt x 0 with hnonpos | hpos
  · rw [counted_of_nonpos hx hnonpos]
    exact Nat.zero_le _
  · obtain ⟨m, rfl, rfl⟩ := Double.exists_of_number?_pos hx hpos
    obtain ⟨m', rfl, rfl⟩ := Double.exists_of_number?_pos hy (hpos.trans_le hle)
    have hrank := Magnitude.number_le_iff.1 hle
    rcases Nat.le_total m'.rank Magnitude.one.rank with hlow | hhigh
    · rw [counted_of_le hlow, counted_of_le (hrank.trans hlow)]
      exact hrank
    · rw [counted_of_ge hhigh]
      exact counted_rank_le _

/-! ### Cutting a list -/

/-- **A share cuts a list in two.** What is held out ends inside the list, and the other elements
follow it, so nothing is lost, and all stay in order. How many are held out is told by the number
that the share stands for, and a larger share holds out the same elements and perhaps some more. -/
theorem ofShare_partition {α : Type} (elements : List α) (h : elements.length ≤ 2 ^ 53)
    (share : Double) :
    let split := ofShare share elements
    heldOut elements.length share ≤ elements.length ∧
      split.validation ++ split.training = elements ∧
      MakesUp elements.length share split.validation.length ∧
      ∀ share' x y, share.number? = some x → share'.number? = some y → x ≤ y →
        split.validation <+: (ofShare share' elements).validation := by
  intro split
  have hle : heldOut elements.length share ≤ elements.length := by
    rw [heldOut_eq h]
    exact portion_counted_le h share
  have hlength : split.validation.length = heldOut elements.length share :=
    List.length_take_of_le hle
  refine ⟨hle, validation_append_training share elements, ?_, ?_⟩
  · rw [hlength]
    exact makesUp_heldOut h share
  · intro share' x y hx hy hxy
    apply List.take_prefix_take_left
    rw [heldOut_eq h, heldOut_eq h]
    exact portion_mono _ (counted_mono hx hy hxy)

/-- The double nearest to 0.3 is less than that, and three elements out of ten are held out by it. They
are among those that infinity holds out, which are all of them. -/
theorem ofShare_partition_rounded :
    let share := Double.ofBits 0x3fd3333333333333
    (List.range 10).length ≤ 2 ^ 53 ∧
      (∃ x : ℝ, share.number? = some (x : EReal) ∧ 10 * x < 3) ∧
      (ofShare share (List.range 10)).validation = [0, 1, 2] ∧ MakesUp 10 share 3 ∧
      [0, 1, 2] <+: (ofShare (.signed false .infinity) (List.range 10)).validation := by
  intro share
  let m : Magnitude := ⟨0x3fd3333333333333, by decide⟩
  have hlength : (List.range 10).length ≤ 2 ^ 53 := by decide
  have hnumber : share.number? = some (m.real : EReal) :=
    congrArg some (Magnitude.number_of_ne (by decide))
  have hless : 10 * m.real < 3 := by
    have hnot : ¬3 * unitsPerOne ≤ 10 * m.units := by decide
    rw [← natCast_le_mul_real, Nat.cast_ofNat, Nat.cast_ofNat] at hnot
    exact not_le.1 hnot
  have hheld : (ofShare share (List.range 10)).validation = [0, 1, 2] := by decide +kernel
  obtain ⟨-, -, hmakes, hmono⟩ := ofShare_partition (List.range 10) hlength share
  have hlarge : (m.real : EReal) ≤ Magnitude.infinity.number := by
    rw [Magnitude.number_infinity]
    exact le_top
  have hall := hmono (.signed false .infinity) _ _ hnumber rfl hlarge
  rw [hheld] at hmakes hall
  exact ⟨hlength, ⟨m.real, hnumber, hless⟩, hheld, hmakes, hall⟩

end Split

end SvmLight
