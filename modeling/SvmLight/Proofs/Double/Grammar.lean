import SvmLight.Proofs.Double.Literal

/-!
# The grammar of literals

Which texts are floating point literals, said without reading them.

* `Decimal.IsNumber` — unsigned decimal numbers: digits with a point among them perhaps, at least
  one digit, and an exponent perhaps.
* `Double.IsLiteral` — a sign perhaps, and then a number or one of three names.
* `Double.isSome_ofText?_iff` — **the literals, and nothing else, are read**.
-/

namespace SvmLight

/-! ### Exponents -/

/-- A sign may be left out. -/
inductive Numeral.IsSign : Text → Prop where
  /-- no sign -/
  | none : IsSign []
  /-- a plus sign -/
  | plus : IsSign ['+']
  /-- a minus sign -/
  | minus : IsSign ['-']

namespace Numeral

/-- What is behind a sign does not begin with one, so it is split off as it was put there. -/
theorem splitSign_append {sign t : Text} (hsign : IsSign sign)
    (h : splitSign t = (false, t)) : (splitSign (sign ++ t)).2 = t := by
  cases hsign with
  | none => rw [List.nil_append, h]
  | plus => rfl
  | minus => rfl

/-- Every text is a sign, or none, and what is behind it. -/
theorem exists_sign (t : Text) : ∃ sign, IsSign sign ∧ t = sign ++ (splitSign t).2 := by
  rw [splitSign.eq_def]
  split
  · exact ⟨['-'], .minus, rfl⟩
  · exact ⟨['+'], .plus, rfl⟩
  · exact ⟨[], .none, rfl⟩

/-- A whole number is read where a sign, or none, and digits are written. -/
theorem isSome_integer?_iff {t : Text} :
    (integer? t).isSome = true ↔ ∃ sign digits n, t = sign ++ digits ∧ IsSign sign ∧
      IsDigits digits n := by
  rw [integer?_eq, Option.isSome_map, Option.isSome_iff_exists]
  constructor
  · rintro ⟨n, hdigits⟩
    obtain ⟨sign, hsign, ht⟩ := exists_sign t
    exact ⟨sign, _, n, ht, hsign, digits?_eq_some_iff.1 hdigits⟩
  · rintro ⟨sign, digits, n, rfl, hsign, hdigits⟩
    rw [splitSign_append hsign (splitSign_of_isDigits hdigits)]
    exact ⟨n, digits?_eq_some_iff.2 hdigits⟩

end Numeral

/-! ### Decimal numbers -/

namespace Decimal

/-- The exponent part of a number. -/
inductive IsExponent : Text → Prop where
  /-- no exponent -/
  | none : IsExponent []
  /-- the letter `e` in either case, a sign or none, and digits -/
  | letter {c : Char} {sign digits : Text} {n : Nat} (letter : c = 'e' ∨ c = 'E')
      (isSign : Numeral.IsSign sign) (isDigits : Numeral.IsDigits digits n) :
      IsExponent (c :: (sign ++ digits))

/-- A decimal number without a sign. -/
inductive IsNumber : Text → Prop where
  /-- digits, and perhaps an exponent -/
  | whole {whole exponent : Text} (ne_nil : whole ≠ [])
      (digit : ∀ c ∈ whole, c.isDigit = true) (isExponent : IsExponent exponent) :
      IsNumber (whole ++ exponent)
  /-- digits on one side of a point or on both, and perhaps an exponent -/
  | point {whole fraction exponent : Text} (ne_nil : whole ++ fraction ≠ [])
      (digit : ∀ c ∈ whole ++ fraction, c.isDigit = true) (isExponent : IsExponent exponent) :
      IsNumber (whole ++ '.' :: (fraction ++ exponent))

theorem isSome_exponent?_iff {t : Text} : (exponent? t).isSome = true ↔ IsExponent t := by
  cases t with
  | nil => exact iff_of_true rfl .none
  | cons c t =>
    rw [exponent?]
    split
    · rename_i hletter
      rw [Bool.or_eq_true, beq_iff_eq, beq_iff_eq] at hletter
      rw [Numeral.isSome_integer?_iff]
      constructor
      · rintro ⟨sign, digits, n, rfl, hsign, hdigits⟩
        exact .letter hletter hsign hdigits
      · intro h
        cases h with
        | letter _ hsign hdigits => exact ⟨_, _, _, rfl, hsign, hdigits⟩
    · rename_i hletter
      rw [Bool.or_eq_true, beq_iff_eq, beq_iff_eq] at hletter
      refine iff_of_false Bool.false_ne_true ?_
      intro h
      cases h with
      | letter hletter' _ _ => exact hletter hletter'

/-- An exponent does not go on with digits. -/
theorem IsExponent.head_not_digit {t : Text} (h : IsExponent t) :
    ∀ c ∈ t.head?, c.isDigit = false := by
  cases h with
  | none =>
    intro c hc
    cases hc
  | letter hletter _ _ =>
    intro c hc
    cases hc
    rcases hletter with rfl | rfl
    · decide
    · decide

/-- A point is split off with the digits behind it. -/
theorem splitFraction_cases (t : Text) :
    splitFraction t = ([], t) ∨
      ∃ fraction rest, t = '.' :: (fraction ++ rest) ∧ splitFraction t = (fraction, rest) := by
  rw [splitFraction.eq_def]
  split
  · exact .inr ⟨_, _, congrArg _ List.takeWhile_append_dropWhile.symm, rfl⟩
  · exact .inl rfl

/-- A number is read in three parts. -/
theorem isSome_ofText?_eq (t : Text) :
    (ofText? t).isSome =
      ((Numeral.digits? (t.takeWhile Char.isDigit ++
          (splitFraction (t.dropWhile Char.isDigit)).1)).isSome &&
        (exponent? (splitFraction (t.dropWhile Char.isDigit)).2).isSome) := by
  rw [ofText?]
  dsimp only
  cases Numeral.digits? (t.takeWhile Char.isDigit ++
      (splitFraction (t.dropWhile Char.isDigit)).1) with
  | none => rfl
  | some significand =>
    cases exponent? (splitFraction (t.dropWhile Char.isDigit)).2 <;> rfl

/-- **The decimal numbers, and nothing else, are read as such.** -/
theorem isSome_ofText?_iff {t : Text} : (ofText? t).isSome = true ↔ IsNumber t := by
  rw [isSome_ofText?_eq, Bool.and_eq_true, isSome_exponent?_iff, Option.isSome_iff_exists]
  constructor
  · rintro ⟨⟨n, hdigits⟩, hexponent⟩
    obtain ⟨hne, hdigit, -⟩ := Numeral.digits?_eq_some_iff.1 hdigits
    have hsplit : t = t.takeWhile Char.isDigit ++ t.dropWhile Char.isDigit :=
      List.takeWhile_append_dropWhile.symm
    generalize t.takeWhile Char.isDigit = whole at hne hdigit hsplit
    generalize t.dropWhile Char.isDigit = rest at hexponent hne hdigit hsplit
    rw [hsplit]
    rcases splitFraction_cases rest with hnone | ⟨fraction, exponent, rfl, hpoint⟩
    · rw [hnone] at hexponent hne hdigit
      rw [List.append_nil] at hne hdigit
      exact .whole hne hdigit hexponent
    · rw [hpoint] at hexponent hne hdigit
      exact .point hne hdigit hexponent
  · intro h
    cases h with
    | @whole whole exponent ne_nil digit hexponent =>
      obtain ⟨htake, hdrop⟩ := span_append digit hexponent.head_not_digit
      have hfraction : splitFraction exponent = ([], exponent) := by
        cases hexponent with
        | none => rfl
        | letter hletter _ _ =>
          rcases hletter with rfl | rfl
          · rfl
          · rfl
      rw [htake, hdrop, hfraction, List.append_nil]
      exact ⟨⟨_, Numeral.digits?_of_digits ne_nil digit⟩, hexponent⟩
    | @point whole fraction exponent ne_nil digit hexponent =>
      obtain ⟨hwhole, hfraction⟩ := List.forall_mem_append.1 digit
      have hpoint : ∀ c ∈ ('.' :: (fraction ++ exponent)).head?, c.isDigit = false := by
        intro c hc
        cases hc
        decide
      obtain ⟨htake, hdrop⟩ := span_append hwhole hpoint
      obtain ⟨htake', hdrop'⟩ := span_append hfraction hexponent.head_not_digit
      rw [htake, hdrop, splitFraction, htake', hdrop']
      exact ⟨⟨_, Numeral.digits?_of_digits ne_nil digit⟩, hexponent⟩

/-- The first character of a number is a digit or a point. -/
theorem IsNumber.splitSign_eq {t : Text} (h : IsNumber t) :
    Numeral.splitSign t = (false, t) := by
  cases h with
  | @whole whole exponent ne_nil digit _ =>
    obtain ⟨c, whole, rfl⟩ := List.exists_cons_of_ne_nil ne_nil
    exact Numeral.splitSign_cons (digit c List.mem_cons_self) _
  | @point whole fraction exponent _ digit _ =>
    cases whole with
    | nil => rfl
    | cons c whole => exact Numeral.splitSign_cons (digit c List.mem_cons_self) _

end Decimal

/-! ### Literals -/

namespace Double

/-- A name in any letter case. -/
inductive IsName : Text → Prop where
  /-- infinity, in short -/
  | inf {t : Text} (name : t.lowerAscii = ['i', 'n', 'f']) : IsName t
  /-- infinity -/
  | infinity {t : Text} (name : t.lowerAscii = ['i', 'n', 'f', 'i', 'n', 'i', 't', 'y']) : IsName t
  /-- no number -/
  | nan {t : Text} (name : t.lowerAscii = ['n', 'a', 'n']) : IsName t

/-- A floating point literal: a sign or none, and then a name or a decimal number. -/
inductive IsLiteral : Text → Prop where
  /-- a name -/
  | name {sign t : Text} (isSign : Numeral.IsSign sign) (isName : IsName t) :
      IsLiteral (sign ++ t)
  /-- a decimal number -/
  | number {sign t : Text} (isSign : Numeral.IsSign sign) (isNumber : Decimal.IsNumber t) :
      IsLiteral (sign ++ t)

/-- The first character of a name is a letter. -/
theorem IsName.splitSign_eq {t : Text} (h : IsName t) : Numeral.splitSign t = (false, t) := by
  rw [Numeral.splitSign.eq_def]
  split
  · cases h with
    | inf name => cases name
    | infinity name => cases name
    | nan name => cases name
  · cases h with
    | inf name => cases name
    | infinity name => cases name
    | nan name => cases name
  · rfl

theorem isSome_ofUnsigned?_iff {negative : Bool} {t : Text} :
    (ofUnsigned? negative t).isSome = true ↔ IsName t ∨ Decimal.IsNumber t := by
  rw [ofUnsigned?]
  split
  · rename_i hname
    refine iff_of_true rfl (.inl ?_)
    rcases hname with hname | hname
    · exact .inf hname
    · exact .infinity hname
  · rename_i hinfinity
    split
    · rename_i hname
      exact iff_of_true rfl (.inl (.nan hname))
    · rename_i hnan
      rw [Option.isSome_map, Decimal.isSome_ofText?_iff]
      constructor
      · exact .inr
      · rintro (hname | hnumber)
        · cases hname with
          | inf name => exact absurd (.inl name) hinfinity
          | infinity name => exact absurd (.inr name) hinfinity
          | nan name => exact absurd name hnan
        · exact hnumber

/-- **The literals, and nothing else, are read.** -/
theorem isSome_ofText?_iff {t : Text} : (ofText? t).isSome = true ↔ IsLiteral t := by
  rw [ofText?_eq, isSome_ofUnsigned?_iff]
  constructor
  · obtain ⟨sign, hsign, ht⟩ := Numeral.exists_sign t
    generalize (Numeral.splitSign t).2 = body at ht
    subst ht
    rintro (hname | hnumber)
    · exact .name hsign hname
    · exact .number hsign hnumber
  · intro h
    cases h with
    | name hsign hname =>
      rw [Numeral.splitSign_append hsign hname.splitSign_eq]
      exact .inl hname
    | number hsign hnumber =>
      rw [Numeral.splitSign_append hsign hnumber.splitSign_eq]
      exact .inr hnumber

end Double

end SvmLight
