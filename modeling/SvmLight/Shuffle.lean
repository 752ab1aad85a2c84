import SvmLight.ChaCha

/-!
# Shuffling

A seed decides a shuffle: the same seed rearranges lists of one length in the same way, whatever
they hold. The last place is filled first, with an element drawn from all of them, then the place
before it with one of the others, and so on.

An element is drawn by a random word, which is scaled to the number of elements. Some words are
**rejected** to make all elements equally likely, and the next word is tried then.

* `pick?` — the index that a word stands for; `pick?_lt` says that it is below the bound.
* `draw?` — the first index that the words from some position on stand for.
* `shuffle_perm` — the elements stay the same, whatever is drawn.
-/

namespace SvmLight

namespace Shuffle

/-! ### Drawing an index -/

/-- Remainders below this bound are accepted: the largest multiple of `count` by a power of two
that 32 bits can hold. -/
def acceptedBelow (count : Nat) : Nat := count <<< (31 - count.log2)

/-- The index below `count` that a word stands for, or nothing if the word is rejected. The word
times `count` has the index in its upper half and the remainder in its lower half. -/
def pick? (count : Nat) (word : UInt32) : Option Nat :=
  let product := word.toNat * count
  if product % UInt32.size < acceptedBelow count then some (product / UInt32.size) else none

theorem pick?_lt {count index : Nat} {word : UInt32} (h : pick? count word = some index) :
    index < count := by
  simp only [pick?, Option.ite_none_right_eq_some, Option.some.injEq] at h
  obtain ⟨haccepted, rfl⟩ := h
  have hpos : 0 < count := by
    refine Nat.pos_of_ne_zero ?_
    rintro rfl
    rw [acceptedBelow, Nat.zero_shiftLeft] at haccepted
    exact Nat.not_lt_zero _ haccepted
  exact Nat.div_lt_of_lt_mul (Nat.mul_lt_mul_of_pos_right word.toNat_lt_size hpos)

/-- The index that the first accepted word stands for, and the position after that word. Words are
taken from `position` on, `limit` of them at most. -/
def draw? (words : Nat → UInt32) (count : Nat) : (limit position : Nat) → Option (Nat × Nat)
  | 0, _ => none
  | limit + 1, position =>
    match pick? count (words position) with
    | some index => some (index, position + 1)
    | none => draw? words count limit (position + 1)

theorem draw?_lt {words : Nat → UInt32} {count limit position index next : Nat}
    (h : draw? words count limit position = some (index, next)) : index < count := by
  fun_induction draw? words count limit position with
  | case1 => simp at h
  | case2 limit position picked hpick =>
    obtain ⟨rfl, -⟩ := Prod.mk.inj (Option.some.inj h)
    exact pick?_lt hpick
  | case3 limit position hpick ih => exact ih h

/-! ### Filling the places -/

variable {α : Type}

/-- Fills the places from `last` down to one. The element at place zero has no choice. A stream in
which no word is accepted any more leaves the other places as they are. -/
def fill (words : Nat → UInt32) (limit : Nat) :
    (last position : Nat) → Array α → Array α
  | 0, _, elements => elements
  | last + 1, position, elements =>
    match draw? words (last + 2) limit position with
    | none => elements
    | some (index, next) =>
      fill words limit last next (elements.swapIfInBounds (last + 1) index)

theorem swapIfInBounds_perm (elements : Array α) (i j : Nat) :
    (elements.swapIfInBounds i j).Perm elements := by
  rw [Array.swapIfInBounds]
  split
  · split
    · exact Array.swap_perm _ _
    · exact Array.Perm.refl _
  · exact Array.Perm.refl _

theorem fill_perm (words : Nat → UInt32) (limit last position : Nat) (elements : Array α) :
    (fill words limit last position elements).Perm elements := by
  fun_induction fill words limit last position elements with
  | case1 => exact Array.Perm.refl _
  | case2 => exact Array.Perm.refl _
  | case3 last position elements index next hdraw ih => exact ih.trans (swapIfInBounds_perm _ _ _)

end Shuffle

/-- The list, rearranged as the seed decides. A stream of words is searched for one period only,
since it holds nothing new after that. -/
def shuffle {α : Type} (seed : UInt64) (elements : List α) : List α :=
  let words := ChaCha.word (ChaCha.Key.ofSeed seed)
  (Shuffle.fill words ChaCha.period (elements.length - 1) 0 elements.toArray).toList

/-- Shuffling loses nothing and makes nothing. -/
theorem shuffle_perm {α : Type} (seed : UInt64) (elements : List α) :
    (shuffle seed elements).Perm elements :=
  (Shuffle.fill_perm _ _ _ _ elements.toArray).toList

end SvmLight
