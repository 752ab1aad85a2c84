import Mathlib.Algebra.Ring.Int.Defs
import Mathlib.Algebra.Ring.Nat
import SvmLight.Numeral

/-!
# Reading numerals

What is written as a whole number is read as that number again, and what is read as an index is
written like one.

* `digits?_natural`, `integer?_integer` — natural numbers and whole numbers.
* `index?_natural`, `int64?_integer` — the same within the ranges of the format.
* `IsDigits`, `IsIndex`, `IsInteger` — how digits, indices and whole numbers are written;
  `digits?_eq_some_iff`, `index?_eq_some_iff`, `integer?_eq_some_iff` and `int64?_eq_some_iff` say
  that nothing else is read.
-/

namespace SvmLight.Numeral

/-! ### Notation -/

/-- A run of digits, and its value. -/
structure IsDigits (t : Text) (n : Nat) : Prop where
  /-- there is a digit -/
  ne_nil : t ≠ []
  /-- there is nothing else -/
  digit : ∀ c ∈ t, c.isDigit = true
  /-- the value, in decimal notation -/
  value : Nat.ofDigitChars 10 t 0 = n

/-- An index, and its value below `2 ^ 64`: digits, and a plus sign in front perhaps. -/
inductive IsIndex : Text → Nat → Prop where
  /-- digits alone -/
  | digits {t : Text} {n : Nat} (digits : IsDigits t n) (lt : n < 2 ^ 64) : IsIndex t n
  /-- a plus sign and digits -/
  | plus {t : Text} {n : Nat} (digits : IsDigits t n) (lt : n < 2 ^ 64) : IsIndex ('+' :: t) n

/-- A whole number, and its value: digits, and a sign in front perhaps. -/
inductive IsInteger : Text → Int → Prop where
  /-- digits alone -/
  | digits {t : Text} {n : Nat} (digits : IsDigits t n) : IsInteger t n
  /-- a plus sign and digits -/
  | plus {t : Text} {n : Nat} (digits : IsDigits t n) : IsInteger ('+' :: t) n
  /-- a minus sign and digits -/
  | minus {t : Text} {n : Nat} (digits : IsDigits t n) : IsInteger ('-' :: t) (-n)

/-- Zero with a minus sign in front. -/
inductive IsMinusZero : Text → Prop where
  /-- a minus sign and zeros -/
  | digits {t : Text} (digits : IsDigits t 0) : IsMinusZero ('-' :: t)

/-! ### Digits -/

theorem natural_ne_nil (n : Nat) : natural n ≠ [] := Nat.toDigits_ne_nil

theorem isDigit_of_mem_natural {n : Nat} {c : Char} (h : c ∈ natural n) : c.isDigit = true :=
  Nat.isDigit_of_mem_toDigits (by decide) (by decide) h

theorem exists_natural_eq_cons (n : Nat) : ∃ c t, natural n = c :: t ∧ c.isDigit = true := by
  obtain ⟨c, t, htext⟩ := List.exists_cons_of_ne_nil (natural_ne_nil n)
  have hmem : c ∈ natural n := by
    rw [htext]
    exact List.mem_cons_self
  exact ⟨c, t, htext, isDigit_of_mem_natural hmem⟩

/-- A run of digits has a value. -/
theorem digits?_of_digits {t : Text} (hne : t ≠ []) (h : ∀ c ∈ t, c.isDigit = true) :
    digits? t = some (Nat.ofDigitChars 10 t 0) := by
  rw [digits?, List.all_eq_true.2 h, List.isEmpty_eq_false_iff.2 hne]
  rfl

/-- Nothing else has one. -/
theorem of_digits?_eq_some {t : Text} {n : Nat} (h : digits? t = some n) :
    t ≠ [] ∧ (∀ c ∈ t, c.isDigit = true) ∧ Nat.ofDigitChars 10 t 0 = n := by
  rw [digits?] at h
  split at h
  · cases h
  · rename_i hdigits
    simp only [Bool.or_eq_true, Bool.not_eq_true', not_or, Bool.not_eq_true,
      Bool.not_eq_false, List.isEmpty_eq_false_iff] at hdigits
    exact ⟨hdigits.1, List.all_eq_true.1 hdigits.2, Option.some.inj h⟩

theorem digits?_eq_some_iff {t : Text} {n : Nat} : digits? t = some n ↔ IsDigits t n := by
  constructor
  · intro h
    obtain ⟨hne, hdigit, hvalue⟩ := of_digits?_eq_some h
    exact ⟨hne, hdigit, hvalue⟩
  · rintro ⟨hne, hdigit, rfl⟩
    exact digits?_of_digits hne hdigit

theorem digits?_natural (n : Nat) : digits? (natural n) = some n := by
  rw [digits?_of_digits (natural_ne_nil n) fun c hc => isDigit_of_mem_natural hc, natural,
    Nat.ofDigitChars_ten_toDigits]

/-! ### Signs -/

/-- A digit in front is no sign. -/
theorem splitSign_cons {c : Char} (h : c.isDigit = true) (t : Text) :
    splitSign (c :: t) = (false, c :: t) := by
  rw [splitSign.eq_def]
  split
  · rename_i heq
    cases heq
    exact absurd h (by decide)
  · rename_i heq
    cases heq
    exact absurd h (by decide)
  · rfl

theorem splitSign_of_isDigits {t : Text} {n : Nat} (h : IsDigits t n) :
    splitSign t = (false, t) := by
  obtain ⟨c, t, rfl⟩ := List.exists_cons_of_ne_nil h.ne_nil
  exact splitSign_cons (h.digit c List.mem_cons_self) t

theorem splitSign_natural (n : Nat) : splitSign (natural n) = (false, natural n) := by
  obtain ⟨c, t, htext, hc⟩ := exists_natural_eq_cons n
  rw [htext]
  exact splitSign_cons hc t

/-- The sign is read first, and then the digits. -/
theorem integer?_eq (t : Text) :
    integer? t = (digits? (splitSign t).2).map fun n : Nat =>
      if (splitSign t).1 then -(n : Int) else n := by
  rw [integer?]
  obtain ⟨negative, digits⟩ := splitSign t
  dsimp only
  cases digits? digits <;> rfl

/-- **A whole number is read exactly where one is written.** -/
theorem integer?_eq_some_iff {t : Text} {z : Int} : integer? t = some z ↔ IsInteger t z := by
  rw [integer?_eq, Option.map_eq_some_iff]
  simp only [digits?_eq_some_iff]
  constructor
  · rintro ⟨n, hdigits, rfl⟩
    revert hdigits
    rw [splitSign.eq_def]
    split
    · exact .minus
    · exact .plus
    · exact .digits
  · intro h
    cases h with
    | digits digits =>
      rw [splitSign_of_isDigits digits]
      exact ⟨_, digits, rfl⟩
    | plus digits => exact ⟨_, digits, rfl⟩
    | minus digits => exact ⟨_, digits, rfl⟩

/-- A text is written for one whole number only. -/
theorem IsInteger.eq {t : Text} {z z' : Int} (h : IsInteger t z) (h' : IsInteger t z') :
    z = z' := by
  rw [← integer?_eq_some_iff] at h h'
  exact Option.some.inj (h.symm.trans h')

theorem IsMinusZero.isInteger {t : Text} (h : IsMinusZero t) : IsInteger t 0 := by
  cases h with
  | digits digits => exact .minus digits

/-! ### Indices -/

theorem filter_indexBound_eq_some_iff {t : Text} {n : Nat} :
    (digits? t).filter (· < indexBound) = some n ↔ IsDigits t n ∧ n < 2 ^ 64 := by
  rw [Option.filter_eq_some_iff, digits?_eq_some_iff, decide_eq_true_iff]
  rfl

/-- **An index is read exactly where one is written.** -/
theorem index?_eq_some_iff {t : Text} {n : Nat} : index? t = some n ↔ IsIndex t n := by
  rw [index?.eq_def]
  split
  · rename_i digits
    rw [filter_indexBound_eq_some_iff]
    constructor
    · rintro ⟨hdigits, hlt⟩
      exact .plus hdigits hlt
    · intro h
      cases h with
      | digits hdigits _ => exact absurd (hdigits.digit '+' List.mem_cons_self) (by decide)
      | plus hdigits hlt => exact ⟨hdigits, hlt⟩
  · rename_i hplus
    rw [filter_indexBound_eq_some_iff]
    constructor
    · rintro ⟨hdigits, hlt⟩
      exact .digits hdigits hlt
    · intro h
      cases h with
      | digits hdigits hlt => exact ⟨hdigits, hlt⟩
      | plus _ _ => exact absurd rfl (hplus _)

/-! ### Reading back -/

theorem integer?_integer (z : Int) : integer? (integer z) = some z := by
  rw [integer]
  split
  · rename_i hneg
    have hsign : splitSign ('-' :: natural z.natAbs) = (true, natural z.natAbs) := rfl
    rw [integer?_eq, hsign, digits?_natural, Option.map_some, if_pos rfl]
    exact congrArg some (by omega)
  · rename_i hpos
    rw [integer?_eq, splitSign_natural, digits?_natural, Option.map_some,
      if_neg Bool.false_ne_true]
    exact congrArg some (Int.natAbs_of_nonneg (Int.not_lt.1 hpos))

theorem index?_natural {n : Nat} (h : n < indexBound) : index? (natural n) = some n := by
  have hdigits : index? (natural n) = (digits? (natural n)).filter (· < indexBound) := by
    obtain ⟨c, t, htext, hc⟩ := exists_natural_eq_cons n
    rw [htext, index?.eq_def]
    split
    · rename_i heq
      cases heq
      exact absurd hc (by decide)
    · rfl
  rw [hdigits, digits?_natural, Option.filter_some_pos (by simpa using h)]

/-- **A whole number is read as one of 64 bits exactly where it has so many.** -/
theorem int64?_eq_some_iff {t : Text} {n : Int64} : int64? t = some n ↔ IsInteger t n.toInt := by
  rw [← integer?_eq_some_iff, int64?, Option.map_eq_some_iff]
  constructor
  · rintro ⟨z, hz, rfl⟩
    obtain ⟨hread, hrange⟩ := Option.filter_eq_some_iff.1 hz
    simp only [Bool.and_eq_true, decide_eq_true_eq] at hrange
    rw [hread, Int64.toInt_ofInt_of_le hrange.1 (Int.lt_add_one_of_le hrange.2)]
  · intro h
    refine ⟨n.toInt, ?_, Int64.ofInt_toInt n⟩
    rw [h, Option.filter_some_pos]
    simp only [Bool.and_eq_true, decide_eq_true_eq]
    exact ⟨n.minValue_le_toInt, n.toInt_le⟩

theorem int64?_integer (n : Int64) : int64? (integer n.toInt) = some n :=
  int64?_eq_some_iff.2 (integer?_eq_some_iff.1 (integer?_integer n.toInt))

/-- No other numbers have so many bits. -/
theorem int64?_eq_none_iff {t : Text} :
    int64? t = none ↔ ∀ z, IsInteger t z → z < -2 ^ 63 ∨ 2 ^ 63 ≤ z := by
  rw [Option.eq_none_iff_forall_ne_some]
  simp only [ne_eq, int64?_eq_some_iff]
  constructor
  · intro h z hz
    by_cases hrange : z < -2 ^ 63 ∨ 2 ^ 63 ≤ z
    · exact hrange
    · have htoInt : (Int64.ofInt z).toInt = z :=
        Int64.toInt_ofInt_of_le (by omega) (by omega)
      refine absurd ?_ (h (Int64.ofInt z))
      rw [htoInt]
      exact hz
  · intro h n hn
    have hlow : -2 ^ 63 ≤ n.toInt := n.minValue_le_toInt
    have hhigh : n.toInt < 2 ^ 63 := n.toInt_lt
    have := h _ hn
    omega

end SvmLight.Numeral
