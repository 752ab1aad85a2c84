import SvmLight.Proofs.Double.Shortest
import SvmLight.Proofs.Text

/-!
# Reading doubles back

The text of a double is a literal, and it denotes that double.

* `Decimal.ofText?_digits`, `Decimal.ofText?_point` — what decimal numbers without an exponent
  denote.
* `Decimal.exists_ofText?_positional` — positional notation keeps the value.
* `Double.ofText?_text` — every double is read back.
* `Double.ofText?_of_isInteger` — a whole number is also a literal.
* `Double.IsNearestInt` — the double nearest to a whole number, which is what both are rounded to.
-/

namespace SvmLight

namespace Decimal

/-! ### Decimal numbers without an exponent -/

theorem ofText?_digits {t : Text} (hne : t ≠ []) (h : ∀ c ∈ t, c.isDigit = true) :
    ofText? t = some ⟨Nat.ofDigitChars 10 t 0, 0⟩ := by
  have hwhole : t.takeWhile Char.isDigit = t := List.takeWhile_eq_self_iff.2 h
  have hrest : t.dropWhile Char.isDigit = [] := List.dropWhile_eq_nil_iff.2 h
  simp only [ofText?, hwhole, hrest, splitFraction, List.append_nil,
    Numeral.digits?_of_digits hne h, exponent?]
  rfl

theorem ofText?_point {whole fraction : Text} (hne : whole ≠ [])
    (h : ∀ c ∈ whole ++ fraction, c.isDigit = true) :
    ofText? (whole ++ '.' :: fraction) =
      some ⟨Nat.ofDigitChars 10 (whole ++ fraction) 0, -(fraction.length : Int)⟩ := by
  obtain ⟨hwhole, hfraction⟩ := List.forall_mem_append.1 h
  have hpoint : ∀ c ∈ ('.' :: fraction).head?, c.isDigit = false := by simp
  obtain ⟨htake, hdrop⟩ := span_append hwhole hpoint
  have hsplit : splitFraction ('.' :: fraction) = (fraction, []) := by
    rw [splitFraction, List.takeWhile_eq_self_iff.2 hfraction,
      List.dropWhile_eq_nil_iff.2 hfraction]
  have hvalue := Numeral.digits?_of_digits (List.append_ne_nil_of_left_ne_nil hne fraction) h
  simp only [ofText?, htake, hdrop, hsplit, hvalue, exponent?, Option.bind_eq_bind,
    Option.bind_some, Int.zero_sub]
  rfl

/-! ### Whole numbers -/

/-- A whole number is rounded to the nearest magnitude. -/
theorem toMagnitude_whole (n : Nat) :
    toMagnitude ⟨n, 0⟩ = .nearest (n * Double.unitsPerOne) 1 := by
  have hexponent : (0 : Int) = .ofNat 0 := rfl
  rw [hexponent, toMagnitude_eq_iff, num_ofNat, den_ofNat, Nat.pow_zero, Nat.mul_one]
  exact Magnitude.isNearest_nearest _ Nat.one_pos

/-- Powers of ten can be multiplied out. -/
theorem toMagnitude_mul_pow (n e : Nat) :
    toMagnitude ⟨n * 10 ^ e, 0⟩ = toMagnitude ⟨n, .ofNat e⟩ := by
  have hexponent : (0 : Int) = .ofNat 0 := rfl
  rw [hexponent]
  apply toMagnitude_congr
  · rw [num_ofNat, num_ofNat, Nat.pow_zero, Nat.mul_one]
  · rw [den_ofNat, den_ofNat]

/-! ### Positional notation -/

theorem positional_ofNat (n e : Nat) :
    positional ⟨n, .ofNat e⟩ = Numeral.natural n ++ List.replicate e '0' := rfl

theorem isDigit_of_mem_zeros {n : Nat} {c : Char} (h : c ∈ List.replicate n '0') :
    c.isDigit = true := by
  obtain rfl := List.eq_of_mem_replicate h
  decide

/-- With a negative exponent there is a point, with at least one digit in front of it. -/
theorem positional_negSucc (n e : Nat) :
    ∃ whole fraction, positional ⟨n, .negSucc e⟩ = whole ++ '.' :: fraction ∧ whole ≠ [] ∧
      (∀ c ∈ whole ++ fraction, c.isDigit = true) ∧
      Nat.ofDigitChars 10 (whole ++ fraction) 0 = n ∧ fraction.length = e + 1 := by
  have hdigits : ∀ c ∈ Numeral.natural n, c.isDigit = true :=
    fun c hc => Numeral.isDigit_of_mem_natural hc
  have hvalue : Nat.ofDigitChars 10 (Numeral.natural n) 0 = n := Nat.ofDigitChars_ten_toDigits
  rw [positional]
  dsimp only
  split
  · -- the point is among the digits
    rename_i hlt
    refine ⟨_, _, rfl, ?_, ?_, ?_, ?_⟩
    · rw [Ne, List.take_eq_nil_iff, not_or]
      exact ⟨Nat.sub_ne_zero_of_lt hlt, Numeral.natural_ne_nil n⟩
    · rw [List.take_append_drop]
      exact hdigits
    · rw [List.take_append_drop]
      exact hvalue
    · rw [List.length_drop, Nat.sub_sub_self (Nat.le_of_lt hlt)]
  · -- all digits are behind the point
    rename_i hge
    refine ⟨['0'], List.replicate (e + 1 - (Numeral.natural n).length) '0' ++ Numeral.natural n,
      rfl, List.cons_ne_nil '0' [], ?_, ?_, ?_⟩
    · have hzero : Char.isDigit '0' = true := by decide
      have hzeros : ∀ c ∈ List.replicate (e + 1 - (Numeral.natural n).length) '0',
          c.isDigit = true := fun c hc => isDigit_of_mem_zeros hc
      exact List.forall_mem_append.2
        ⟨List.forall_mem_singleton.2 hzero, List.forall_mem_append.2 ⟨hzeros, hdigits⟩⟩
    · rw [Nat.ofDigitChars_append, Nat.ofDigitChars_append, Nat.ofDigitChars_replicate_zero]
      exact hvalue
    · rw [List.length_append, List.length_replicate, Nat.sub_add_cancel (Nat.le_of_not_lt hge)]

/-- **Positional notation keeps the value.** -/
theorem exists_ofText?_positional (d : Decimal) :
    ∃ d', ofText? d.positional = some d' ∧ d'.toMagnitude = d.toMagnitude := by
  obtain ⟨n, exponent⟩ := d
  cases exponent with
  | ofNat e =>
    have hne := List.append_ne_nil_of_left_ne_nil (Numeral.natural_ne_nil n) (List.replicate e '0')
    have hdigits : ∀ c ∈ Numeral.natural n ++ List.replicate e '0', c.isDigit = true :=
      List.forall_mem_append.2
        ⟨fun c hc => Numeral.isDigit_of_mem_natural hc, fun c hc => isDigit_of_mem_zeros hc⟩
    have hvalue : Nat.ofDigitChars 10 (Numeral.natural n ++ List.replicate e '0') 0 =
        10 ^ e * n := by
      rw [Nat.ofDigitChars_append, Nat.ofDigitChars_replicate_zero, Numeral.natural,
        Nat.ofDigitChars_ten_toDigits]
    refine ⟨⟨n * 10 ^ e, 0⟩, ?_, toMagnitude_mul_pow n e⟩
    rw [positional_ofNat, ofText?_digits hne hdigits, hvalue, Nat.mul_comm]
  | negSucc e =>
    obtain ⟨whole, fraction, htext, hne, hdigits, hvalue, hlength⟩ := positional_negSucc n e
    refine ⟨_, ?_, rfl⟩
    rw [htext, ofText?_point hne hdigits, hvalue, hlength]
    rfl

/-- The first character is a digit. -/
theorem exists_positional_eq_cons (d : Decimal) :
    ∃ c t, d.positional = c :: t ∧ c.isDigit = true := by
  obtain ⟨n, exponent⟩ := d
  cases exponent with
  | ofNat e =>
    obtain ⟨c, t, htext, hc⟩ := Numeral.exists_natural_eq_cons n
    refine ⟨c, t ++ List.replicate e '0', ?_, hc⟩
    rw [positional_ofNat, htext, List.cons_append]
  | negSucc e =>
    obtain ⟨whole, fraction, htext, hne, hdigits, -, -⟩ := positional_negSucc n e
    obtain ⟨c, t, rfl⟩ := List.exists_cons_of_ne_nil hne
    exact ⟨c, _, htext, hdigits c (List.mem_append_left _ List.mem_cons_self)⟩

end Decimal

namespace Double

/-! ### Literals -/

theorem ofText?_eq (t : Text) :
    ofText? t = ofUnsigned? (Numeral.splitSign t).1 (Numeral.splitSign t).2 := rfl

theorem toLower_of_isDigit {c : Char} (h : c.isDigit = true) : c.toLower = c := by
  simp only [Char.isDigit, Bool.and_eq_true, decide_eq_true_eq] at h
  refine dif_neg ?_
  rintro ⟨hletter, -⟩
  exact absurd (UInt32.le_trans hletter h.2) (by decide)

/-- What begins with a digit is no name. -/
theorem ofUnsigned?_cons {c : Char} (h : c.isDigit = true) (negative : Bool) (t : Text) :
    ofUnsigned? negative (c :: t) =
      (Decimal.ofText? (c :: t)).map fun d => .signed negative d.toMagnitude := by
  have hi : c ≠ 'i' := by
    rintro rfl
    exact absurd h (by decide)
  have hn : c ≠ 'n' := by
    rintro rfl
    exact absurd h (by decide)
  rw [ofUnsigned?, Text.lowerAscii, List.map_cons, toLower_of_isDigit h, if_neg (by simp [hi]),
    if_neg (by simp [hn])]

/-- A magnitude is read back, under either sign. -/
theorem ofUnsigned?_text (negative : Bool) (m : Magnitude) :
    ofUnsigned? negative m.text = some (.signed negative m) := by
  rw [Magnitude.text]
  split
  · rename_i hinfinity
    rw [hinfinity]
    rfl
  · split
    · rename_i hzero
      rw [hzero]
      rfl
    · obtain ⟨c, t, htext, hc⟩ := m.shortest.exists_positional_eq_cons
      obtain ⟨d, hread, hd⟩ := m.shortest.exists_ofText?_positional
      rw [htext] at hread ⊢
      rw [ofUnsigned?_cons hc, hread, Option.map_some, hd, Magnitude.toMagnitude_shortest]

/-- No magnitude has a sign in front. -/
theorem splitSign_text (m : Magnitude) : Numeral.splitSign m.text = (false, m.text) := by
  rw [Magnitude.text]
  split
  · rfl
  · split
    · rfl
    · obtain ⟨c, t, htext, hc⟩ := m.shortest.exists_positional_eq_cons
      rw [htext]
      exact Numeral.splitSign_cons hc t

/-- **Every double is read back.** -/
theorem ofText?_text (x : Double) : ofText? x.text = some x := by
  cases x with
  | nan => rfl
  | signed negative m =>
    cases negative with
    | true => exact ofUnsigned?_text true m
    | false =>
      rw [ofText?_eq, text, splitSign_text]
      exact ofUnsigned?_text false m

/-! ### Whole numbers -/

theorem eqv_self (negative : Bool) (m : Magnitude) :
    (signed negative m).eqv (signed negative m) = true := by
  cases negative with
  | true => exact beq_self_eq_true _
  | false => exact beq_self_eq_true _

/-- Both zeros have one value. -/
theorem eqv_zero (negative negative' : Bool) :
    (signed negative .zero).eqv (signed negative' .zero) = true := by
  cases negative <;> cases negative' <;> rfl

/-- Digits are rounded once, however many there are. -/
theorem ofUnsigned?_of_isDigits {t : Text} {n : Nat} (h : Numeral.IsDigits t n) (negative : Bool) :
    ofUnsigned? negative t = some (.signed negative (.nearest (n * unitsPerOne) 1)) := by
  obtain ⟨hne, hdigit, rfl⟩ := h
  have hdecimal := Decimal.ofText?_digits hne hdigit
  obtain ⟨c, t, rfl⟩ := List.exists_cons_of_ne_nil hne
  rw [ofUnsigned?_cons (hdigit c List.mem_cons_self), hdecimal, Option.map_some,
    Decimal.toMagnitude_whole]

/-- Minus zero keeps its sign. -/
theorem ofText?_of_isMinusZero {t : Text} (h : Numeral.IsMinusZero t) :
    ofText? t = some (.signed true .zero) := by
  cases h with
  | digits digits =>
    have hread := ofUnsigned?_of_isDigits digits true
    rw [Nat.zero_mul, Magnitude.nearest_zero Nat.one_pos] at hread
    exact hread

/-- **What is written as a whole number is also a literal**, of the same value; only minus zero is
no whole number. -/
theorem ofText?_of_isInteger {t : Text} {z : Int} (h : Numeral.IsInteger t z)
    (hzero : ¬Numeral.IsMinusZero t) : ofText? t = some (ofInt z) := by
  cases h with
  | digits digits =>
    rw [ofText?_eq, Numeral.splitSign_of_isDigits digits]
    exact ofUnsigned?_of_isDigits digits false
  | plus digits => exact ofUnsigned?_of_isDigits digits false
  | @minus t n digits =>
    have hpos : n ≠ 0 := by
      rintro rfl
      exact hzero (.digits digits)
    have hread := ofUnsigned?_of_isDigits digits true
    have hsign : decide (-(n : Int) < 0) = true := by simpa using Nat.pos_of_ne_zero hpos
    rw [ofInt, hsign, Int.natAbs_neg, Int.natAbs_natCast]
    exact hread

theorem ofInt_zero : ofInt 0 = zero := by
  rw [ofInt, Int.natAbs_zero, Nat.zero_mul, Magnitude.nearest_zero Nat.one_pos]
  rfl

/-- Both have one value, also where the literal is minus zero. -/
theorem exists_ofText?_of_isInteger {t : Text} {z : Int} (h : Numeral.IsInteger t z) :
    ∃ x, ofText? t = some x ∧ (ofInt z).eqv x = true := by
  by_cases hzero : Numeral.IsMinusZero t
  · obtain rfl := h.eq hzero.isInteger
    rw [ofInt_zero]
    exact ⟨_, ofText?_of_isMinusZero hzero, eqv_zero _ _⟩
  · exact ⟨_, ofText?_of_isInteger h hzero, eqv_self _ _⟩

/-! ### Whole numbers are rounded to the nearest -/

/-- A double that is nearest to a whole number. Near zero it has either sign. -/
inductive IsNearestInt (z : Int) : Double → Prop where
  /-- its magnitude is nearest to that of the number, and it has the sign of the number -/
  | signed {negative : Bool} {m : Magnitude} (sign : z ≠ 0 → negative = decide (z < 0))
      (isNearest : m.IsNearest (z.natAbs * unitsPerOne) 1) : IsNearestInt z (.signed negative m)

/-- **A whole number is rounded to the nearest double.** -/
theorem isNearestInt_ofInt (z : Int) : (ofInt z).IsNearestInt z :=
  .signed (fun _ => rfl) (Magnitude.isNearest_nearest _ Nat.one_pos)

/-- **A literal that is written like a whole number** is rounded to the double nearest to it. -/
theorem isNearestInt_ofText? {t : Text} {z : Int} {x : Double} (h : Numeral.IsInteger t z)
    (hx : ofText? t = some x) : x.IsNearestInt z := by
  by_cases hzero : Numeral.IsMinusZero t
  · obtain rfl := h.eq hzero.isInteger
    rw [ofText?_of_isMinusZero hzero] at hx
    cases hx
    refine .signed (fun hne => absurd rfl hne) ?_
    rw [Int.natAbs_zero, Nat.zero_mul]
    exact Magnitude.isNearest_zero Nat.one_pos
  · rw [ofText?_of_isInteger h hzero] at hx
    cases hx
    exact isNearestInt_ofInt z

end Double

end SvmLight
