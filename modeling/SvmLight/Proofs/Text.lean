import Mathlib.Data.List.Basic
import Mathlib.Data.List.TakeWhile
import SvmLight.Text

/-!
# Cutting texts

A text is cut in front of the first character of some kind: the part before it has none of them, and
the rest begins with one. Trimming does so from both ends.

* `span_append`, `exists_dropWhile` — a part of one kind, and the rest.
* `Text.breakAt_append`, `Text.breakAt_of_not_mem` — where a text is broken.
* `Text.trim_eq`, `Text.exists_trim` — what trimming takes off, and what it leaves.
-/

namespace SvmLight

/-! ### Where a part ends -/

/-- A part of one kind and a rest that begins otherwise are told apart. -/
theorem span_append {α : Type} {p : α → Bool} {front rest : List α}
    (hfront : ∀ x ∈ front, p x = true) (h : ∀ x ∈ rest.head?, p x = false) :
    (front ++ rest).takeWhile p = front ∧ (front ++ rest).dropWhile p = rest := by
  rw [List.takeWhile_append_of_pos hfront, List.dropWhile_append_of_pos hfront]
  cases rest with
  | nil => exact ⟨List.append_nil front, rfl⟩
  | cons x rest =>
    have hx : ¬p x = true := by simp [h x rfl]
    rw [List.takeWhile_cons_of_neg hx, List.dropWhile_cons_of_neg hx, List.append_nil]
    exact ⟨rfl, rfl⟩

/-- What is dropped, and what is left. -/
theorem exists_dropWhile {α : Type} (p : α → Bool) (l : List α) :
    ∃ front, (∀ x ∈ front, p x = true) ∧ l = front ++ l.dropWhile p ∧
      ∀ x ∈ (l.dropWhile p).head?, p x = false := by
  refine ⟨l.takeWhile p, fun x hx => List.mem_takeWhile_imp hx,
    List.takeWhile_append_dropWhile.symm, ?_⟩
  intro x hx
  have hhead := List.head?_dropWhile_not p l
  rw [Option.mem_def.1 hx] at hhead
  exact hhead

theorem bne_of_not_mem {α : Type} [BEq α] [LawfulBEq α] {x : α} {l : List α} (h : x ∉ l) :
    ∀ y ∈ l, (y != x) = true :=
  fun _ hy => bne_iff_ne.2 fun heq => h (heq ▸ hy)

namespace Text

/-! ### Breaking -/

/-- A text is broken at the first of the characters. -/
theorem breakAt_append {c : Char} {t : Text} (h : c ∉ t) (rest : Text) :
    breakAt c (t ++ c :: rest) = (t, some rest) := by
  have hfirst : ∀ d ∈ (c :: rest).head?, (d != c) = false := by simp
  obtain ⟨htake, hdrop⟩ := span_append (bne_of_not_mem h) hfirst
  rw [breakAt, htake, hdrop]
  rfl

theorem breakAt_of_not_mem {c : Char} {t : Text} (h : c ∉ t) : breakAt c t = (t, none) := by
  rw [breakAt, List.takeWhile_eq_self_iff.2 (bne_of_not_mem h),
    List.dropWhile_eq_nil_iff.2 (bne_of_not_mem h)]
  rfl

/-! ### Blanks at both ends -/

/-- Nothing but blanks. -/
def Blank (t : Text) : Prop := ∀ c ∈ t, isBlank c = true

theorem blank_nil : Blank [] := by simp [Blank]

/-- There is no blank at either end. -/
structure Trimmed (t : Text) : Prop where
  /-- it does not begin with a blank -/
  first : ∀ c ∈ t.head?, isBlank c = false
  /-- it does not end with a blank -/
  last : ∀ c ∈ t.getLast?, isBlank c = false

/-- Trimming takes off the blanks at both ends. -/
theorem trim_eq {front t back : Text} (hfront : Blank front) (ht : Trimmed t) (hback : Blank back) :
    trim (front ++ t ++ back) = t := by
  rw [trim, trimStart, trimEnd, dropEndWhile]
  cases t with
  | nil =>
    have hblank : Blank (front ++ [] ++ back) := by
      rw [List.append_nil, Blank, List.forall_mem_append]
      exact ⟨hfront, hback⟩
    rw [List.dropWhile_eq_nil_iff.2 hblank]
    rfl
  | cons c t =>
    have hfirst : ∀ d ∈ (c :: t ++ back).head?, isBlank d = false := ht.first
    have hlast : ∀ d ∈ (c :: t).reverse.head?, isBlank d = false := by
      rw [List.head?_reverse]
      exact ht.last
    have hends : ∀ d ∈ back.reverse, isBlank d = true := fun d hd => hback d (List.mem_reverse.1 hd)
    rw [List.append_assoc, (span_append hfront hfirst).2, List.reverse_append,
      (span_append hends hlast).2, List.reverse_reverse]

/-- Every text is trimmed up to blanks at both ends. -/
theorem exists_trim (t : Text) :
    ∃ front back, Blank front ∧ Blank back ∧ Trimmed t.trim ∧ t = front ++ t.trim ++ back := by
  obtain ⟨front, hfront, ht, hfirst⟩ := exists_dropWhile isBlank t
  obtain ⟨ends, hends, hrest, hlast⟩ := exists_dropWhile isBlank (t.dropWhile isBlank).reverse
  have htrim : t.trim = ((t.dropWhile isBlank).reverse.dropWhile isBlank).reverse := rfl
  have hsplit : t.dropWhile isBlank = t.trim ++ ends.reverse := by
    rw [htrim, ← List.reverse_append, ← hrest, List.reverse_reverse]
  refine ⟨front, ends.reverse, hfront, fun c hc => hends c (List.mem_reverse.1 hc), ⟨?_, ?_⟩, ?_⟩
  · -- what is left after the blanks at the end were dropped begins like before
    intro c hc
    apply hfirst c
    rw [hsplit, List.head?_append, Option.mem_def.1 hc]
    rfl
  · rw [htrim, List.getLast?_reverse]
    exact hlast
  · rw [List.append_assoc, ← hsplit]
    exact ht

end Text

end SvmLight
