import SvmLight.Features
import SvmLight.Proofs.Numeral

/-!
# Indices

An index counts from zero or from one. It is decoded from the numeral that is `IndexBase.written`
for it, and from no other; what else can stand in its place is a **fault**, of one kind each.

* `IndexBase.decode_eq_ok_iff` — which numerals are indices below a bound.
* `IndexBase.Fault` — what can be wrong with a numeral, the worst first.
* `IndexBase.decode_eq_error_iff` — **the error of an index is its fault**.
* `IndexBase.decode_natural` — what is written in digits is read back in either base, up to the end
  of the range.
-/

namespace SvmLight.IndexBase

/-- The index of a position that is counted from zero. -/
def written : IndexBase → Nat → Nat
  | .zero, position => position
  | .one, position => position + 1

variable {base : IndexBase} {kind : IndexKind} {bound : Nat} {token numeral : Text}

/-! ### Counting from zero -/

theorem normalize?_eq_some_iff {n position : Nat} :
    base.normalize? n = some position ↔ n = base.written position := by
  cases base with
  | zero => exact Option.some_inj
  | one =>
    cases n with
    | zero => simp [normalize?, written]
    | succ n => simp [normalize?, written]

theorem normalize?_eq_none_iff {n : Nat} : base.normalize? n = none ↔ base = .one ∧ n = 0 := by
  cases base with
  | zero => simp [normalize?]
  | one =>
    cases n with
    | zero => simp [normalize?]
    | succ n => simp [normalize?]

/-! ### Decoding -/

/-- What is wrong with a numeral that stands for an index in a token. -/
inductive Fault (base : IndexBase) (kind : IndexKind) (bound : Nat) (token numeral : Text) :
    DecodeError → Prop where
  /-- it is no numeral, or one of `2 ^ 64` or more -/
  | malformed (not_index : ∀ n, ¬Numeral.IsIndex numeral n) :
      Fault base kind bound token numeral (.malformedIndex kind token)
  /-- it is zero, and indices count from one -/
  | zero (base_eq : base = .one) (index : Numeral.IsIndex numeral 0) :
      Fault base kind bound token numeral (.zeroIndex kind)
  /-- it is beyond the bound -/
  | outOfRange {position : Nat} (index : Numeral.IsIndex numeral (base.written position))
      (bound_le : bound ≤ position) :
      Fault base kind bound token numeral (.indexOutOfRange kind position bound)

/-- Decoding reads the numeral, counts from zero, and compares with the bound. -/
theorem decode_of_index {n : Nat} (h : Numeral.IsIndex numeral n) :
    base.decode kind bound token numeral =
      match base.normalize? n with
      | none => .error (.zeroIndex kind)
      | some position =>
        if position < bound then .ok position
        else .error (.indexOutOfRange kind position bound) := by
  rewrite [decode, Numeral.index?_eq_some_iff.2 h]
  rfl

theorem decode_of_not_index (h : ∀ n, ¬Numeral.IsIndex numeral n) :
    base.decode kind bound token numeral = .error (.malformedIndex kind token) := by
  have hnone : Numeral.index? numeral = none := by
    rw [Option.eq_none_iff_forall_ne_some]
    intro n hn
    exact h n (Numeral.index?_eq_some_iff.1 hn)
  rw [decode, hnone]

/-- **An index is decoded where it is written, if it is below the bound.** -/
theorem decode_eq_ok_iff {position : Nat} :
    base.decode kind bound token numeral = .ok position ↔
      Numeral.IsIndex numeral (base.written position) ∧ position < bound := by
  constructor
  · intro h
    by_cases hindex : ∃ n, Numeral.IsIndex numeral n
    · obtain ⟨n, hn⟩ := hindex
      rw [decode_of_index hn] at h
      split at h
      · cases h
      · rename_i position' hposition
        rw [normalize?_eq_some_iff.1 hposition] at hn
        split at h
        · rename_i hlt
          cases h
          exact ⟨hn, hlt⟩
        · cases h
    · rw [decode_of_not_index (not_exists.1 hindex)] at h
      cases h
  · rintro ⟨hindex, hlt⟩
    rw [decode_of_index hindex, normalize?_eq_some_iff.2 rfl]
    exact if_pos hlt

/-- **The error of an index is its fault.** -/
theorem decode_eq_error_iff {e : DecodeError} :
    base.decode kind bound token numeral = .error e ↔ base.Fault kind bound token numeral e := by
  constructor
  · intro h
    by_cases hindex : ∃ n, Numeral.IsIndex numeral n
    · obtain ⟨n, hn⟩ := hindex
      rw [decode_of_index hn] at h
      split at h
      · rename_i hzero
        obtain ⟨hbase, rfl⟩ := normalize?_eq_none_iff.1 hzero
        cases h
        exact .zero hbase hn
      · rename_i position hposition
        rw [normalize?_eq_some_iff.1 hposition] at hn
        split at h
        · cases h
        · rename_i hge
          cases h
          exact .outOfRange hn (Nat.le_of_not_lt hge)
    · rw [decode_of_not_index (not_exists.1 hindex)] at h
      cases h
      exact .malformed (not_exists.1 hindex)
  · intro h
    cases h with
    | malformed not_index => exact decode_of_not_index not_index
    | zero base_eq index => rw [decode_of_index index, normalize?_eq_none_iff.2 ⟨base_eq, rfl⟩]
    | outOfRange index bound_le =>
      rw [decode_of_index index, normalize?_eq_some_iff.2 rfl]
      exact if_neg (Nat.not_lt.2 bound_le)

/-! ### Reading back -/

/-- Positions up to here have an index in either base. -/
def limit : Nat := 2 ^ 64 - 1

theorem isIndex_written {position : Nat} (h : position < limit) (base : IndexBase) :
    Numeral.IsIndex (Numeral.natural (base.written position)) (base.written position) := by
  apply Numeral.index?_eq_some_iff.1
  apply Numeral.index?_natural
  have hlimit : limit + 1 = Numeral.indexBound := rfl
  cases base with
  | zero =>
    rw [written]
    omega
  | one =>
    rw [written]
    omega

/-- **A written index is decoded to its position**, or is out of range, in either base alike. -/
theorem decode_natural {position : Nat} (h : position < limit) :
    base.decode kind bound token (Numeral.natural (base.written position)) =
      if position < bound then .ok position else .error (.indexOutOfRange kind position bound) := by
  rw [decode_of_index (isIndex_written h base), normalize?_eq_some_iff.2 rfl]

end SvmLight.IndexBase
