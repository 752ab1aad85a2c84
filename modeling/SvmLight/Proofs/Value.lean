import SvmLight.Labels
import SvmLight.Proofs.Double.Literal

/-!
# Values read back

A value that is written as a label and decoded again is the same value, with one exception: a double
that is written like a whole number comes back as that number. Both have one value then, since a
whole number is also a literal of the double nearest to it.

* `Value.ReadsBack` — what a label can be read back as.
* `Labels.exists_value_text` — that is what it is read back as.
* `Value.IsSymbol` — the characters that values are written with.
-/

namespace SvmLight

/-! ### Characters -/

theorem Text.isBlank_of_isDigit {c : Char} (h : c.isDigit = true) : isBlank c = false := by
  simp only [Char.isDigit, Bool.and_eq_true, decide_eq_true_eq, UInt32.le_iff_toNat_le] at h
  have hlow : 48 ≤ c.toNat := h.1
  have hhigh : c.toNat ≤ 57 := h.2
  rw [isBlank]
  simp
  omega

namespace Value

/-- The characters other than digits that values are written with. -/
def symbols : List Char := ['-', '.', 'i', 'n', 'f', 'N', 'a']

/-- The characters that values are written with. -/
def IsSymbol (c : Char) : Prop := c.isDigit = true ∨ c ∈ symbols

instance : DecidablePred IsSymbol := fun c =>
  inferInstanceAs (Decidable (c.isDigit = true ∨ c ∈ symbols))

theorem IsSymbol.not_blank {c : Char} (h : IsSymbol c) : Text.isBlank c = false := by
  rcases h with hdigit | hmem
  · exact Text.isBlank_of_isDigit hdigit
  · have hall : symbols.all (!Text.isBlank ·) = true := by decide
    simpa using List.all_eq_true.1 hall c hmem

theorem IsSymbol.ne {c d : Char} (h : IsSymbol c) (hd : ¬IsSymbol d) : c ≠ d := by
  rintro rfl
  exact hd h

/-- For words that are written out. -/
theorem isSymbol_of_mem {word : Text} {c : Char} (hall : word.all (decide <| IsSymbol ·) = true)
    (h : c ∈ word) : IsSymbol c := of_decide_eq_true (List.all_eq_true.1 hall c h)

theorem isSymbol_of_mem_natural {n : Nat} {c : Char} (h : c ∈ Numeral.natural n) : IsSymbol c :=
  .inl (Numeral.isDigit_of_mem_natural h)

theorem isSymbol_of_mem_positional {d : Decimal} {c : Char} (h : c ∈ d.positional) :
    IsSymbol c := by
  obtain ⟨n, exponent⟩ := d
  cases exponent with
  | ofNat e =>
    rcases List.mem_append.1 h with h | h
    · exact isSymbol_of_mem_natural h
    · exact .inl (Decimal.isDigit_of_mem_zeros h)
  | negSucc e =>
    obtain ⟨whole, fraction, htext, -, hdigits, -, -⟩ := Decimal.positional_negSucc n e
    rw [htext, List.mem_append, List.mem_cons] at h
    rcases h with h | rfl | h
    · exact .inl (hdigits c (List.mem_append_left _ h))
    · decide
    · exact .inl (hdigits c (List.mem_append_right _ h))

theorem isSymbol_of_mem_magnitude {m : Magnitude} {c : Char} (h : c ∈ m.text) : IsSymbol c := by
  rw [Magnitude.text] at h
  split at h
  · exact isSymbol_of_mem (by decide) h
  · split at h
    · exact isSymbol_of_mem (by decide) h
    · exact isSymbol_of_mem_positional h

theorem isSymbol_of_mem_double {x : Double} {c : Char} (h : c ∈ x.text) : IsSymbol c := by
  match x with
  | .nan => exact isSymbol_of_mem (by decide) h
  | .signed true m =>
    rcases List.mem_cons.1 h with rfl | h
    · decide
    · exact isSymbol_of_mem_magnitude h
  | .signed false m => exact isSymbol_of_mem_magnitude h

/-- **Values are written with symbols only.** -/
theorem isSymbol_of_mem_text {v : Value} {c : Char} (h : c ∈ v.text) : IsSymbol c := by
  cases v with
  | int n =>
    rw [text, Numeral.integer] at h
    split at h
    · rcases List.mem_cons.1 h with rfl | h
      · decide
      · exact isSymbol_of_mem_natural h
    · exact isSymbol_of_mem_natural h
  | float x => exact isSymbol_of_mem_double h

/-- No value is written with nothing. -/
theorem text_ne_nil (v : Value) : v.text ≠ [] := by
  intro hnil
  cases v with
  | int n =>
    have hread := Numeral.integer?_integer n.toInt
    rw [← text, hnil] at hread
    cases hread
  | float x =>
    have hread := x.ofText?_text
    rw [← text, hnil] at hread
    cases hread

/-! ### Labels -/

/-- What a label can be read back as: a whole number as itself, a NaN as a NaN, and any other double
as a value that is equal to it — as a whole number if it is written like one, else as itself. -/
def ReadsBack : Value → Value → Prop
  | .int n, v => v = .int n
  | .float .nan, v => v = .float .nan
  | .float x, v =>
    v.toDouble.eqv x = true ∧ (∀ n, Numeral.int64? x.text = some n → v = .int n) ∧
      (Numeral.int64? x.text = none → v = .float x)

end Value

namespace Labels

theorem value_int (n : Int64) : value (Value.int n).text = .ok (.int n) := by
  rw [value, Value.text, Numeral.int64?_integer]

/-- A double that is written like a whole number has the value of that number. -/
theorem eqv_of_int64? {x : Double} {n : Int64} (h : Numeral.int64? x.text = some n) :
    (Double.ofInt n.toInt).eqv x = true := by
  obtain ⟨y, hread, heqv⟩ := Double.exists_ofText?_of_isInteger (Numeral.int64?_eq_some_iff.1 h)
  rw [Double.ofText?_text] at hread
  cases hread
  exact heqv

theorem value_float (x : Double) :
    value (Value.float x).text =
      .ok (match Numeral.int64? x.text with
        | some n => .int n
        | none => .float x) := by
  rw [value, Value.text]
  cases Numeral.int64? x.text with
  | some n => rfl
  | none =>
    dsimp only
    rw [Double.ofText?_text]

/-- **What a written label is read back as.** -/
theorem exists_value_text (v : Value) : ∃ v', value v.text = .ok v' ∧ v.ReadsBack v' := by
  match v with
  | .int n => exact ⟨_, value_int n, rfl⟩
  | .float .nan => exact ⟨.float .nan, value_float .nan, rfl⟩
  | .float (.signed negative m) =>
    refine ⟨_, value_float _, ?_⟩
    cases hint : Numeral.int64? (Double.signed negative m).text with
    | some n =>
      refine ⟨eqv_of_int64? hint, ?_, ?_⟩
      · intro n' hn'
        rw [hint] at hn'
        cases hn'
        rfl
      · intro hnone
        rw [hint] at hnone
        cases hnone
    | none =>
      refine ⟨Double.eqv_self negative m, ?_, ?_⟩
      · intro n hn
        rw [hint] at hn
        cases hn
      · intro _
        rfl

end Labels

end SvmLight
