import Mathlib.Algebra.Ring.Nat
import Mathlib.Data.List.NodupEquivFin
import SvmLight.Shuffle

/-!
# The order of a shuffle

A shuffle is written here a second time, as a loop that knows no limit: words are rejected until one
is accepted, all arithmetic is on words of 32 bits, and places are swapped that have to be there.
Whatever this loop comes to is the shuffle. It comes to something if every draw comes to an end, as
no index that is drawn is behind the place to be filled.

The elements are never looked at. So there is one order of places for a seed and a length, and all
lists of this length are put into it.

* `Shuffle.pickWord?_eq` — nothing is lost in 32 bits.
* `Shuffle.Draws.rejected_lt` — a draw that comes to an end does so within one period.
* `Shuffle.Fills`, `Shuffle.Ends` — the loop, and whether its draws come to an end;
  `Shuffle.fills_iff` says that it is the shuffle.
* `Shuffle.order` — where each place gets its element from.
* `Shuffle.exists_order` — **one order for all lists of a length**.
-/

namespace SvmLight

namespace Shuffle

/-! ### Words of 32 bits -/

/-- How many bits are zero before the first other one, in a word that has one. -/
def leadingZeros (word : UInt32) : UInt32 := 31 - word.log2

/-- The largest remainder that is accepted. -/
def zone (range : UInt32) : UInt32 := range <<< leadingZeros range - 1

/-- The index below `range` that a word stands for, or nothing if the word is rejected. -/
def pickWord? (range word : UInt32) : Option UInt32 :=
  let product := word.toUInt64 * range.toUInt64
  if product.toUInt32 ≤ zone range then some (product >>> 32).toUInt32 else none

variable {range : UInt32}

theorem acceptedBelow_pos {count : Nat} (h : 0 < count) : 0 < acceptedBelow count := by
  rw [acceptedBelow, Nat.shiftLeft_eq]
  exact Nat.mul_pos h (Nat.two_pow_pos _)

theorem acceptedBelow_lt {count : Nat} (h : count.log2 < 32) : acceptedBelow count < 2 ^ 32 := by
  rw [acceptedBelow, Nat.shiftLeft_eq]
  calc count * 2 ^ (31 - count.log2) < 2 ^ (count.log2 + 1) * 2 ^ (31 - count.log2) :=
        Nat.mul_lt_mul_of_pos_right Nat.lt_log2_self (Nat.two_pow_pos _)
    _ = 2 ^ 32 := by
        rw [← Nat.pow_add]
        exact congrArg (2 ^ ·) (by omega)

/-- The first bit of the range is moved to the front, so no bit is lost. -/
theorem toNat_zone (h : 0 < range.toNat) :
    (zone range).toNat + 1 = acceptedBelow range.toNat := by
  have hlog : range.toNat.log2 < 32 := (Nat.log2_lt (Nat.ne_of_gt h)).2 range.toNat_lt
  have hzeros : (leadingZeros range).toNat = 31 - range.toNat.log2 :=
    UInt32.toNat_sub_of_le _ _ (UInt32.le_iff_toNat_le.2 (Nat.le_of_lt_succ hlog))
  have hmod : (31 - range.toNat.log2) % 32 = 31 - range.toNat.log2 := Nat.mod_eq_of_lt (by omega)
  have hshift : (range <<< leadingZeros range).toNat = acceptedBelow range.toNat := by
    rw [UInt32.toNat_shiftLeft, hzeros, hmod]
    exact Nat.mod_eq_of_lt (acceptedBelow_lt hlog)
  have hpos := acceptedBelow_pos h
  rw [zone, UInt32.toNat_sub_of_le, hshift]
  · exact Nat.sub_add_cancel hpos
  · rw [UInt32.le_iff_toNat_le, hshift]
    exact hpos

/-- **Nothing is lost in 32 bits**, nor in the 64 bits that a product has. -/
theorem pickWord?_eq (h : 0 < range.toNat) (word : UInt32) :
    (pickWord? range word).map UInt32.toNat = pick? range.toNat word := by
  have hlt : word.toNat * range.toNat < 2 ^ 32 * 2 ^ 32 :=
    Nat.mul_lt_mul'' word.toNat_lt range.toNat_lt
  have hproduct : (word.toUInt64 * range.toUInt64).toNat = word.toNat * range.toNat := by
    rw [UInt64.toNat_mul, UInt32.toNat_toUInt64, UInt32.toNat_toUInt64]
    exact Nat.mod_eq_of_lt hlt
  have hlower : (word.toUInt64 * range.toUInt64).toUInt32 ≤ zone range ↔
      word.toNat * range.toNat % UInt32.size < acceptedBelow range.toNat := by
    rw [UInt32.le_iff_toNat_le, UInt64.toNat_toUInt32, hproduct, ← toNat_zone h]
    exact Nat.lt_succ_iff.symm
  have hupper : ((word.toUInt64 * range.toUInt64) >>> 32).toUInt32.toNat =
      word.toNat * range.toNat / UInt32.size := by
    have hhalf : (32 : UInt64).toNat % 64 = 32 := rfl
    rw [UInt64.toNat_toUInt32, UInt64.toNat_shiftRight, hproduct, hhalf, Nat.shiftRight_eq_div_pow]
    exact Nat.mod_eq_of_lt (Nat.div_lt_of_lt_mul hlt)
  rw [pickWord?, pick?]
  simp only [hlower]
  split
  · exact congrArg some hupper
  · rfl

/-! ### Draws -/

/-- A draw without a limit: so many words are rejected, and the next one stands for the index. -/
structure Draws (words : Nat → UInt32) (range : UInt32) (position rejected : Nat)
    (index : UInt32) : Prop where
  /-- the words before are rejected -/
  rejects : ∀ i < rejected, pickWord? range (words (position + i)) = none
  /-- this word is accepted -/
  accepts : pickWord? range (words (position + rejected)) = some index

/-- The words come again after so many. -/
def Repeats (words : Nat → UInt32) (period : Nat) : Prop :=
  ∀ position, words (position + period) = words position

variable {words : Nat → UInt32} {period position rejected : Nat} {index : UInt32}

/-- **A draw that comes to an end does so within one period**: a word that is accepted later has been
rejected before. -/
theorem Draws.rejected_lt (hwords : Repeats words period) (hperiod : 0 < period)
    (h : Draws words range position rejected index) : rejected < period := by
  by_contra hnot
  obtain ⟨i, rfl⟩ := Nat.exists_eq_add_of_le' (Nat.not_lt.1 hnot)
  have haccepts := h.accepts
  rw [← Nat.add_assoc, hwords, h.rejects i (by omega)] at haccepts
  cases haccepts

/-- A draw is found by the search if this is long enough. -/
theorem Draws.draw?_eq (hrange : 0 < range.toNat) {limit : Nat} (hlimit : rejected < limit)
    (h : Draws words range position rejected index) :
    draw? words range.toNat limit position = some (index.toNat, position + rejected + 1) := by
  induction rejected generalizing position limit with
  | zero =>
    obtain ⟨limit, rfl⟩ := Nat.exists_eq_succ_of_ne_zero (Nat.ne_of_gt hlimit)
    have haccepts := h.accepts
    rw [Nat.add_zero] at haccepts
    rw [draw?, ← pickWord?_eq hrange, haccepts]
    rfl
  | succ rejected ih =>
    obtain ⟨limit, rfl⟩ := Nat.exists_eq_succ_of_ne_zero (Nat.ne_of_gt (Nat.zero_lt_of_lt hlimit))
    have hfirst := h.rejects 0 (Nat.succ_pos _)
    rw [Nat.add_zero] at hfirst
    have hrest : Draws words range (position + 1) rejected index := by
      refine ⟨?_, ?_⟩
      · intro i hi
        rw [Nat.add_assoc, Nat.add_comm 1]
        exact h.rejects (i + 1) (Nat.succ_lt_succ hi)
      · rw [Nat.add_assoc, Nat.add_comm 1]
        exact h.accepts
    rw [draw?, ← pickWord?_eq hrange, hfirst]
    refine (ih (Nat.lt_of_succ_lt_succ hlimit) hrest).trans ?_
    rw [Nat.add_assoc position, Nat.add_comm 1]

/-- **An index that is drawn is below the range.** -/
theorem Draws.index_lt (hrange : 0 < range.toNat)
    (h : Draws words range position rejected index) : index.toNat < range.toNat :=
  draw?_lt (h.draw?_eq hrange (Nat.lt_succ_self rejected))

/-! ### The loop -/

/-- The range for filling a place: the place itself, and those before it. -/
def rangeUpTo (place : Nat) : UInt32 := UInt32.ofNat (place + 1)

theorem toNat_rangeUpTo {place : Nat} (h : place + 1 < 2 ^ 32) :
    (rangeUpTo place).toNat = place + 1 := UInt32.toNat_ofNat_of_lt' h

variable {α : Type} {last : Nat} {elements result : Array α}

/-- The loop without a limit. The places from `last` down to one are filled, each by swapping it with
one that is not behind it. Both have to be there. -/
inductive Fills (words : Nat → UInt32) : (last position : Nat) → (elements result : Array α) → Prop
    where
  /-- the place zero has no choice -/
  | done {position : Nat} {elements : Array α} : Fills words 0 position elements elements
  /-- an index is drawn, and the places are swapped -/
  | swap {last position rejected : Nat} {index : UInt32} {elements result : Array α}
      (draws : Draws words (rangeUpTo (last + 1)) position rejected index)
      (le : index.toNat ≤ last + 1) (lt : last + 1 < elements.size)
      (rest : Fills words last (position + rejected + 1)
        (elements.swap (last + 1) index.toNat lt (Nat.lt_of_le_of_lt le lt)) result) :
      Fills words (last + 1) position elements result

/-- Every draw of the loop comes to an end. -/
inductive Ends (words : Nat → UInt32) : (last position : Nat) → Prop where
  /-- there is nothing to draw -/
  | done {position : Nat} : Ends words 0 position
  /-- an index is drawn, and so are the ones after it -/
  | draw {last position rejected : Nat} {index : UInt32}
      (draws : Draws words (rangeUpTo (last + 1)) position rejected index)
      (rest : Ends words last (position + rejected + 1)) : Ends words (last + 1) position

theorem Fills.ends (h : Fills words last position elements result) :
    Ends words last position := by
  induction h with
  | done => exact .done
  | swap draws _ _ _ ih => exact .draw draws ih

/-- **The loop does not go wrong**: it comes to something if its draws come to an end. -/
theorem Ends.exists_fills (h : Ends words last position) (hlast : last ≤ elements.size - 1)
    (hsize : elements.size < 2 ^ 32) : ∃ result, Fills words last position elements result := by
  induction h generalizing elements with
  | done => exact ⟨elements, .done⟩
  | @draw last position rejected index draws _ ih =>
    have hplace : last + 1 + 1 < 2 ^ 32 := by omega
    have hrange := toNat_rangeUpTo hplace
    have hindex := draws.index_lt (by omega)
    have hle : index.toNat ≤ last + 1 := by omega
    have hlt : last + 1 < elements.size := by omega
    let swapped := elements.swap (last + 1) index.toNat hlt (Nat.lt_of_le_of_lt hle hlt)
    have hswapped : swapped.size = elements.size := Array.size_swap
    have hlast' : last ≤ swapped.size - 1 := by omega
    obtain ⟨result, hresult⟩ := ih hlast' (hswapped ▸ hsize)
    exact ⟨result, .swap draws hle hlt hresult⟩

/-- **What the loop comes to is what the places are filled with.** -/
theorem Fills.fill_eq (hwords : Repeats words period) (hperiod : 0 < period)
    (hsize : elements.size < 2 ^ 32) (h : Fills words last position elements result) :
    fill words period last position elements = result := by
  induction h with
  | done => rfl
  | @swap last position rejected index elements result draws le lt _ ih =>
    have hplace : last + 1 + 1 < 2 ^ 32 := by omega
    have hrange := toNat_rangeUpTo hplace
    have hdraw := draws.draw?_eq (by omega) (draws.rejected_lt hwords hperiod)
    rw [hrange] at hdraw
    rw [fill, hdraw]
    dsimp only
    rw [Array.swapIfInBounds, dif_pos lt, dif_pos (Nat.lt_of_le_of_lt le lt)]
    apply ih
    rwa [Array.size_swap]

/-- The loop is the search, and comes to something just where its draws come to an end. -/
theorem fills_iff (hwords : Repeats words period) (hperiod : 0 < period)
    (hlast : last ≤ elements.size - 1) (hsize : elements.size < 2 ^ 32) :
    Fills words last position elements result ↔
      Ends words last position ∧ fill words period last position elements = result := by
  refine ⟨fun h => ⟨h.ends, h.fill_eq hwords hperiod hsize⟩, ?_⟩
  rintro ⟨hends, rfl⟩
  obtain ⟨result, hresult⟩ := hends.exists_fills hlast hsize
  rw [hresult.fill_eq hwords hperiod hsize]
  exact hresult

/-! ### The words of a seed -/

/-- The number of a block has 64 bits. -/
theorem block_add_size (key : ChaCha.Key) (number : Nat) :
    ChaCha.block key (number + UInt64.size) = ChaCha.block key number := by
  have hlower : UInt32.ofNat (number + UInt64.size) = UInt32.ofNat number := by
    apply UInt32.toNat.inj
    rw [UInt32.toNat_ofNat', UInt32.toNat_ofNat', UInt64.size]
    omega
  have hupper : UInt32.ofNat ((number + UInt64.size) >>> 32) = UInt32.ofNat (number >>> 32) := by
    apply UInt32.toNat.inj
    rw [UInt32.toNat_ofNat', UInt32.toNat_ofNat', Nat.shiftRight_eq_div_pow,
      Nat.shiftRight_eq_div_pow, UInt64.size]
    omega
  have hinitial : ChaCha.initial key (number + UInt64.size) = ChaCha.initial key number := by
    rw [ChaCha.initial, hlower, hupper, ChaCha.initial]
  rw [ChaCha.block, hinitial, ChaCha.block]

theorem repeats_word (key : ChaCha.Key) : Repeats (ChaCha.word key) ChaCha.period := by
  intro position
  rw [ChaCha.word, ChaCha.period, Nat.add_mul_div_right _ _ (by decide), block_add_size,
    Nat.add_mul_mod_self_right]
  rfl

/-! ### The order -/

section

variable {β : Type} (f : α → β)

theorem swapIfInBounds_map (elements : Array α) (i j : Nat) :
    (elements.map f).swapIfInBounds i j = (elements.swapIfInBounds i j).map f := by
  rw [Array.swapIfInBounds, Array.swapIfInBounds]
  simp only [Array.size_map]
  split
  · split
    · rw [Array.swap_def, Array.swap_def]
      simp only [Array.getElem_map, Array.map_set]
    · rfl
  · rfl

/-- **The elements are not looked at**, so they may as well be changed afterwards. -/
theorem fill_map (words : Nat → UInt32) (limit last position : Nat) (elements : Array α) :
    fill words limit last position (elements.map f) =
      (fill words limit last position elements).map f := by
  fun_induction fill words limit last position elements with
  | case1 => rfl
  | case2 last position elements hdraw => rw [fill, hdraw]
  | case3 last position elements index next hdraw ih =>
    rw [fill, hdraw, ← ih, ← swapIfInBounds_map]

theorem shuffle_map (seed : UInt64) (elements : List α) :
    shuffle seed (elements.map f) = (shuffle seed elements).map f := by
  rw [shuffle, shuffle, List.length_map, ← List.map_toArray, fill_map, Array.toList_map]

end

/-- The places of a list of some length, shuffled themselves. -/
def sources (seed : UInt64) (n : Nat) : List (Fin n) := shuffle seed (List.finRange n)

variable (seed : UInt64) (n : Nat)

theorem sources_perm : (sources seed n).Perm (List.finRange n) := shuffle_perm seed _

theorem length_sources : (sources seed n).length = n :=
  (sources_perm seed n).length_eq.trans List.length_finRange

theorem nodup_sources : (sources seed n).Nodup :=
  (sources_perm seed n).nodup_iff.2 (List.nodup_finRange n)

theorem mem_sources (i : Fin n) : i ∈ sources seed n :=
  (sources_perm seed n).mem_iff.2 (List.mem_finRange i)

/-- Where each place gets its element from. -/
def order : Equiv.Perm (Fin n) :=
  (finCongr (length_sources seed n).symm).trans
    ((nodup_sources seed n).getEquivOfForallMemList _ (mem_sources seed n))

theorem getElem?_sources (i : Fin n) : (sources seed n)[(i : Nat)]? = some (order seed n i) := by
  have hi : (i : Nat) < (sources seed n).length := (length_sources seed n).symm ▸ i.isLt
  exact List.getElem?_eq_getElem hi

/-- Each place gets its element from the one that the order tells. -/
theorem getElem?_shuffle {elements : List α} (h : elements.length = n) (i : Fin n) :
    (shuffle seed elements)[(i : Nat)]? = elements[(order seed n i : Nat)]? := by
  subst h
  have hsources : shuffle seed elements =
      (sources seed elements.length).map fun j : Fin _ => elements[(j : Nat)] := by
    rw [sources, ← shuffle_map, List.map_getElem_finRange]
  rw [hsources, List.getElem?_map, getElem?_sources]
  exact (List.getElem?_eq_getElem (order seed _ i).isLt).symm

/-- **One order for all lists of a length.** A shuffle loses nothing and makes nothing. The order in
which the elements are put is decided by the seed and by how many there are, and not by what they
are. The shuffle is what the loop comes to that has no limit, computes in 32 bits, and swaps places
that are there; it comes to something if all its draws come to an end. -/
theorem exists_order (seed : UInt64) {n : Nat} (hn : n < 2 ^ 32) :
    ∃ order : Equiv.Perm (Fin n), ∀ {α : Type} (elements : List α), elements.length = n →
      (shuffle seed elements).Perm elements ∧ (shuffle seed elements).length = n ∧
        (∀ i : Fin n, (shuffle seed elements)[(i : Nat)]? = elements[(order i : Nat)]?) ∧
        ∀ result, Fills (ChaCha.word (.ofSeed seed)) (n - 1) 0 elements.toArray result ↔
          Ends (ChaCha.word (.ofSeed seed)) (n - 1) 0 ∧ shuffle seed elements = result.toList := by
  refine ⟨order seed n, ?_⟩
  intro α elements h
  have hperm := shuffle_perm seed elements
  refine ⟨hperm, hperm.length_eq.trans h, getElem?_shuffle seed n h, ?_⟩
  intro result
  have hsize : elements.toArray.size = n := h
  rw [fills_iff (repeats_word _) (by decide) (by omega) (by omega), shuffle, h,
    ← Array.toList_inj]

/-- Words are rejected before each of the two draws. The last place gets the first element, and then
the place before it gets the one that was last. -/
theorem exists_order_three :
    3 < 2 ^ 32 ∧ Fills (ChaCha.word (.ofSeed 3)) 2 0 #[10, 20, 30] #[20, 30, 10] ∧
      ∃ order : Equiv.Perm (Fin 3), order 0 = 1 ∧ order 1 = 2 ∧ order 2 = 0 ∧
        ∀ elements : List Char, elements.length = 3 → ∀ i : Fin 3,
          (shuffle 3 elements)[(i : Nat)]? = elements[(order i : Nat)]? := by
  have hn : 3 < 2 ^ 32 := by decide
  have hfirst : Draws (ChaCha.word (.ofSeed 3)) (rangeUpTo 2) 0 1 0 :=
    ⟨by decide +kernel, by decide +kernel⟩
  have hsecond : Draws (ChaCha.word (.ofSeed 3)) (rangeUpTo 1) 2 2 0 :=
    ⟨by decide +kernel, by decide +kernel⟩
  have hshuffle : shuffle 3 [10, 20, 30] = [20, 30, 10] := by decide +kernel
  obtain ⟨order, horder⟩ := exists_order 3 hn
  obtain ⟨-, -, hplaces, hfills⟩ := horder [10, 20, 30] rfl
  rw [hshuffle] at hplaces
  -- the numbers are different, so they tell the places that they come from
  have hfrom : ∀ i k : Fin 3, [20, 30, 10][(i : Nat)]? = [10, 20, 30][(k : Nat)]? →
      [1, 2, 0][(i : Nat)]? = some k := by decide
  have hzero := Option.some.inj (hfrom 0 _ (hplaces 0))
  have hone := Option.some.inj (hfrom 1 _ (hplaces 1))
  have htwo := Option.some.inj (hfrom 2 _ (hplaces 2))
  refine ⟨hn, (hfills #[20, 30, 10]).2 ⟨.draw hfirst (.draw hsecond .done), hshuffle⟩, order,
    hzero.symm, hone.symm, htwo.symm, ?_⟩
  intro elements hlength
  obtain ⟨-, -, hsame, -⟩ := horder elements hlength
  exact hsame

end Shuffle

end SvmLight
