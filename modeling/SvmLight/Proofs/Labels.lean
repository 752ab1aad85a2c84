import SvmLight.Proofs.Decode
import SvmLight.Proofs.Double.Grammar

/-!
# Listed labels

A listed label is a literal, and its value as a double is the one of the literal. That it may stay a
whole number changes nothing but the sign of a zero.

* `Labels.ReadsAs` — what a piece is read as: a whole number of 64 bits as itself, any other literal
  as a double.
* `Labels.value_eq_ok_iff`, `Labels.value_eq_error_iff` — a piece is decoded as what it is read as,
  and is malformed if it is no literal.
* `Labels.LabelFault` — the leftmost piece of a field that is no literal.
* `Labels.exists_listed_none_iff`, `Labels.listed_eq_error_iff` — which fields are lists of labels,
  and what is reported about the others.
* `Labels.listed_piece` — **one label**: the piece is a literal, and which value it has.
-/

namespace SvmLight

/-- Whole numbers are literals. -/
theorem Numeral.IsInteger.isLiteral {t : Text} {z : Int} (h : IsInteger t z) :
    Double.IsLiteral t := by
  obtain ⟨x, hx, -⟩ := Double.exists_ofText?_of_isInteger h
  exact Double.isSome_ofText?_iff.1 (Option.isSome_of_eq_some hx)

namespace Labels

/-! ### Pieces -/

/-- What a piece is read as. -/
inductive ReadsAs (piece : Text) : Value → Prop where
  /-- a whole number of 64 bits stays one -/
  | int {n : Int64} (integer : Numeral.IsInteger piece n.toInt) : ReadsAs piece (.int n)
  /-- any other literal becomes a double, also a whole number that has more bits -/
  | float {x : Double}
      (not_int : ∀ z, Numeral.IsInteger piece z → z < -2 ^ 63 ∨ 2 ^ 63 ≤ z)
      (literal : Double.ofText? piece = some x) : ReadsAs piece (.float x)

variable {piece field : Text} {v : Value} {labels : List Value} {e : DecodeError}

/-- **A piece is decoded as what it is read as.** -/
theorem value_eq_ok_iff : value piece = .ok v ↔ ReadsAs piece v := by
  constructor
  · intro h
    rw [value] at h
    split at h
    · rename_i n hint
      cases h
      exact .int (Numeral.int64?_eq_some_iff.1 hint)
    · rename_i hint
      split at h
      · rename_i x hx
        cases h
        exact .float (Numeral.int64?_eq_none_iff.1 hint) hx
      · cases h
  · intro h
    cases h with
    | int integer => rw [value, Numeral.int64?_eq_some_iff.2 integer]
    | float not_int literal =>
      rw [value, Numeral.int64?_eq_none_iff.2 not_int]
      dsimp only
      rw [literal]

/-- The literals, and nothing else, are read. -/
theorem exists_readsAs_iff : (∃ v, ReadsAs piece v) ↔ Double.IsLiteral piece := by
  constructor
  · rintro ⟨v, h⟩
    cases h with
    | int integer => exact integer.isLiteral
    | float _ literal => exact Double.isSome_ofText?_iff.1 (Option.isSome_of_eq_some literal)
  · intro h
    obtain ⟨x, hx⟩ := Option.isSome_iff_exists.1 (Double.isSome_ofText?_iff.2 h)
    cases hint : Numeral.int64? piece with
    | some n => exact ⟨.int n, .int (Numeral.int64?_eq_some_iff.1 hint)⟩
    | none => exact ⟨.float x, .float (Numeral.int64?_eq_none_iff.1 hint) hx⟩

/-- **A piece is malformed if it is no literal.** -/
theorem value_eq_error_iff :
    value piece = .error e ↔ ¬Double.IsLiteral piece ∧ e = .malformedLabel piece := by
  constructor
  · intro h
    refine ⟨?_, value_eq_error h⟩
    intro hliteral
    obtain ⟨v, hv⟩ := exists_readsAs_iff.2 hliteral
    rw [value_eq_ok_iff.2 hv] at h
    cases h
  · rintro ⟨hliteral, rfl⟩
    rcases hvalue : value piece with e | v
    · rw [value_eq_error hvalue]
    · exact absurd (exists_readsAs_iff.1 ⟨v, value_eq_ok_iff.1 hvalue⟩) hliteral

/-- What is read has the value of the literal. A whole number has no sign at zero, so it loses the
one of minus zero. -/
theorem ReadsAs.exists_toDouble (h : ReadsAs piece v) :
    ∃ x, Double.ofText? piece = some x ∧ (¬Numeral.IsMinusZero piece → v.toDouble = x) ∧
      (Numeral.IsMinusZero piece → v.toDouble = .zero ∧ x = .signed true .zero) := by
  cases h with
  | @int n integer =>
    by_cases hzero : Numeral.IsMinusZero piece
    · refine ⟨_, Double.ofText?_of_isMinusZero hzero, fun hnot => absurd hzero hnot, fun _ => ?_⟩
      rw [Value.toDouble, integer.eq hzero.isInteger]
      exact ⟨Double.ofInt_zero, rfl⟩
    · exact ⟨_, Double.ofText?_of_isInteger integer hzero, fun _ => rfl, fun h => absurd h hzero⟩
  | float not_int literal =>
    refine ⟨_, literal, fun _ => rfl, fun hzero => ?_⟩
    have hrange := not_int 0 hzero.isInteger
    omega

/-! ### Fields -/

/-- The leftmost piece of a field that is no literal. -/
abbrev LabelFault (field : Text) : DecodeError → Prop :=
  LeftmostFault Double.IsLiteral
    (fun piece e => ¬Double.IsLiteral piece ∧ e = .malformedLabel piece) (pieces field)

/-- What is decoded is what the pieces are read as, one by one. -/
theorem forall₂_of_listed (h : listed none field = .ok labels) :
    List.Forall₂ ReadsAs (pieces field) labels :=
  (forall₂_of_mapM_eq_ok h).imp fun _ _ hvalue => value_eq_ok_iff.1 hvalue

theorem exists_listed_none_iff :
    (∃ labels, listed none field = .ok labels) ↔
      ∀ piece ∈ pieces field, Double.IsLiteral piece := by
  refine exists_mapM_eq_ok_iff.trans (forall₂_congr fun piece _ => ?_)
  simp only [value_eq_ok_iff, exists_readsAs_iff]

theorem listed_none_eq_error_iff : listed none field = .error e ↔ LabelFault field e := by
  apply mapM_eq_error_iff
  · intro piece
    simp only [value_eq_ok_iff, exists_readsAs_iff]
  · intro piece e
    exact value_eq_error_iff

/-- The error is a wrong number of pieces, or the leftmost piece that is no literal. -/
theorem listed_eq_error_iff {count : Option Nat} :
    listed count field = .error e ↔
      (∃ expected, count = some expected ∧ (pieces field).length ≠ expected ∧
        e = .labelCountMismatch (pieces field).length expected) ∨
      (∀ expected, count = some expected → (pieces field).length = expected) ∧
        LabelFault field e := by
  cases count with
  | none => simp [listed_none_eq_error_iff]
  | some expected =>
    rw [listed_some]
    split
    · rename_i heq
      simp [heq, listed_none_eq_error_iff]
    · rename_i hne
      have hne' : expected ≠ (pieces field).length := Ne.symm hne
      simp [hne', eq_comm]

/-! ### One label -/

theorem pieces_of_not_mem (h : ',' ∉ piece) : pieces piece = [piece] :=
  List.splitOn_eq_singleton h

/-- A whole number that is written has the nearest double, and so has the label. -/
theorem ReadsAs.isNearestInt (h : ReadsAs piece v) {z : Int} (hz : Numeral.IsInteger piece z) :
    v.toDouble.IsNearestInt z := by
  obtain ⟨x, hx, hvalue, hminus⟩ := h.exists_toDouble
  by_cases hzero : Numeral.IsMinusZero piece
  · obtain rfl := hz.eq hzero.isInteger
    rw [(hminus hzero).1, ← Double.ofInt_zero]
    exact Double.isNearestInt_ofInt 0
  · rw [hvalue hzero]
    exact Double.isNearestInt_ofText? hz hx

/-- **One label.** A piece is a label if and only if it is a literal; else it is malformed. A whole
number of 64 bits stays one, and any other literal becomes a double. Either way the label has the
value of the literal, except that minus zero loses its sign where it is written as a whole number.
Where a whole number is written, however long it is, the value is the double nearest to it. -/
theorem listed_piece (h : ',' ∉ piece) :
    ((∃ labels, listed none piece = .ok labels) ↔ Double.IsLiteral piece) ∧
      (∀ e, listed none piece = .error e ↔
        ¬Double.IsLiteral piece ∧ e = .malformedLabel piece) ∧
      ∀ labels, listed none piece = .ok labels →
        ∃ v x, labels = [v] ∧ ReadsAs piece v ∧ Double.ofText? piece = some x ∧
          (¬Numeral.IsMinusZero piece → v.toDouble = x) ∧
          (Numeral.IsMinusZero piece → v.toDouble = .zero ∧ x = .signed true .zero) ∧
          ∀ z, Numeral.IsInteger piece z → v.toDouble.IsNearestInt z ∧ x.IsNearestInt z := by
  have hpieces := pieces_of_not_mem h
  refine ⟨?_, ?_, ?_⟩
  · simp [exists_listed_none_iff, hpieces]
  · intro e
    have hlisted : listed none piece = (pieces piece).mapM value := rfl
    rw [← value_eq_error_iff, hlisted, hpieces, List.mapM_cons]
    cases value piece <;> simp
  · intro labels hlabels
    have hall := forall₂_of_listed hlabels
    rw [hpieces] at hall
    cases hall with
    | cons hv hnil =>
      cases hnil
      obtain ⟨x, hx, hvalue, hminus⟩ := hv.exists_toDouble
      refine ⟨_, x, rfl, hv, hx, hvalue, hminus, fun z hz => ⟨hv.isNearestInt hz, ?_⟩⟩
      exact Double.isNearestInt_ofText? hz hx

/-- The first whole number beyond 64 bits becomes a double, and minus zero loses its sign. -/
theorem listed_piece_minus_zero :
    let large := "+9223372036854775808".toList
    let minusZero := "-00".toList
    ',' ∉ large ∧ ',' ∉ minusZero ∧
      (∃ x, listed none large = .ok [.float x] ∧ x.IsNearestInt (2 ^ 63)) ∧
      ∃ v, listed none minusZero = .ok [v] ∧ v = .int 0 ∧
        Double.ofText? minusZero = some (.signed true .zero) := by
  intro large minusZero
  have hlarge : ',' ∉ large := by decide
  have hminus : ',' ∉ minusZero := by decide
  have hinteger : Numeral.IsInteger large (2 ^ 63) := Numeral.integer?_eq_some_iff.1 (by decide)
  have hzero : Numeral.IsMinusZero minusZero := .digits (Numeral.digits?_eq_some_iff.1 (by decide))
  refine ⟨hlarge, hminus, ?_, ?_⟩
  · obtain ⟨haccepted, -, hlabel⟩ := listed_piece hlarge
    obtain ⟨labels, hlabels⟩ := haccepted.2 hinteger.isLiteral
    obtain ⟨v, x, rfl, hv, -, -, -, hnearest⟩ := hlabel labels hlabels
    cases hv with
    | @int n integer =>
      have hlt : n.toInt < 2 ^ 63 := n.toInt_lt
      rw [integer.eq hinteger] at hlt
      cases hlt
    | float _ literal => exact ⟨_, hlabels, (hnearest _ hinteger).1⟩
  · obtain ⟨-, -, hlabel⟩ := listed_piece hminus
    obtain ⟨v, x, hlabels, -, hx, -, hvalue, -⟩ := hlabel [.int 0] (by decide)
    cases hlabels
    rw [(hvalue hzero).2] at hx
    exact ⟨_, by decide, rfl, hx⟩

end Labels

end SvmLight
