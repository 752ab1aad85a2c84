import SvmLight.Proofs.Features
import SvmLight.Proofs.Labels

/-!
# Faults of a line

A line that is no record has a **fault**: one of its tokens is no feature, or its label field is
not what the settings ask for. The error tells what it is, and it tells the truth.

* `Settings.Fault` — what can be wrong with a line, and how it is reported.
* `fault_of_decode` — **the error of a line is one of its faults**.
* `DecodeError.Truthful` — what an error says about the settings and the number of labels.
* `Settings.Fault.truthful` — a fault that is reported says it truly.
-/

namespace SvmLight

/-- What is wrong with a line, where so many labels are known. -/
inductive Settings.Fault (s : Settings) (count : Option Nat) (line : Text) :
    DecodeError → Prop where
  /-- a token should be a feature and is none -/
  | feature {token : Text} {e : DecodeError} (mem : token ∈ (Line.fields line).2)
      (not_query : ¬Features.IsQuery token) (fault : Features.Fault s token e) :
      Fault s count line e
  /-- a piece should be the index of a label and is none -/
  | labelIndex {piece : Text} {bound : Nat} {e : DecodeError} (appendLabel : s.appendLabel = true)
      (multilabel : s.multilabel = true) (numLabels : s.numLabels = some bound)
      (mem : piece ∈ Labels.pieces (Line.fields line).1)
      (fault : s.indexBase.Fault .label bound piece piece e) : Fault s count line e
  /-- a piece should be a number and is none -/
  | label {piece : Text} (appendLabel : s.appendLabel = true) (multilabel : s.multilabel = false)
      (mem : piece ∈ Labels.pieces (Line.fields line).1) (not_literal : ¬Double.IsLiteral piece) :
      Fault s count line (.malformedLabel piece)
  /-- there are more pieces than labels, or fewer -/
  | labelCount {expected : Nat} (appendLabel : s.appendLabel = true)
      (multilabel : s.multilabel = false) (count_eq : count = some expected)
      (length_ne : (Labels.pieces (Line.fields line).1).length ≠ expected) :
      Fault s count line
        (.labelCountMismatch (Labels.pieces (Line.fields line).1).length expected)

/-- What an error says about the settings and the number of labels that is known is true. -/
def DecodeError.Truthful (s : Settings) (count : Option Nat) : DecodeError → Prop
  | .malformedIndex .feature _ => True
  | .malformedIndex .label _ => s.appendLabel = true ∧ s.multilabel = true
  | .malformedValue _ => True
  | .malformedLabel _ => s.appendLabel = true ∧ s.multilabel = false
  | .zeroIndex .feature => s.indexBase = .one
  | .zeroIndex .label => s.indexBase = .one ∧ s.appendLabel = true ∧ s.multilabel = true
  | .indexOutOfRange .feature index bound => bound = s.numFeatures ∧ bound ≤ index
  | .indexOutOfRange .label index bound =>
    s.appendLabel = true ∧ s.multilabel = true ∧ s.numLabels = some bound ∧ bound ≤ index
  | .labelCountMismatch found expected =>
    s.appendLabel = true ∧ s.multilabel = false ∧ count = some expected ∧ found ≠ expected

variable {s : Settings} {count : Option Nat} {e : DecodeError}

/-! ### Features -/

/-- The error of some tokens is the fault of one of them. -/
theorem Features.exists_fault_of_decode {tokens : List Text}
    (h : Features.decode s tokens = .error e) :
    ∃ token ∈ tokens, ¬IsQuery token ∧ Fault s token e := by
  rcases Outcome.bind_eq_error (Outcome.reserve_bind_eq_error h) with hentries | ⟨entries, -, h⟩
  · obtain ⟨token, hmem, hentry⟩ :=
      exists_mem_of_mapM_eq_error (Outcome.eq_error_of_ofExcept hentries)
    obtain ⟨hmem, hkept⟩ := List.mem_filter.1 hmem
    refine ⟨token, hmem, ?_, entry_eq_error_iff.1 hentry⟩
    rw [← isQuery_iff]
    simpa using hkept
  · cases h

/-! ### Labels -/

namespace Labels

theorem exists_fault_of_indicator {base : IndexBase} {numLabels : Nat} {field : Text}
    (h : indicator base numLabels field = .error e) :
    ∃ piece ∈ pieces field, base.Fault .label numLabels piece piece e := by
  rcases Outcome.bind_eq_error (Outcome.reserve_bind_eq_error h) with hindices | ⟨indices, -, h⟩
  · obtain ⟨piece, hmem, hindex⟩ :=
      exists_mem_of_mapM_eq_error (Outcome.eq_error_of_ofExcept hindices)
    exact ⟨piece, hmem, IndexBase.decode_eq_error_iff.1 hindex⟩
  · cases h

theorem exists_fault_of_listed {field : Text} (h : listed count field = .error e) :
    (∃ piece ∈ pieces field, e = .malformedLabel piece ∧ ¬Double.IsLiteral piece) ∨
      ∃ expected, count = some expected ∧ (pieces field).length ≠ expected ∧
        e = .labelCountMismatch (pieces field).length expected := by
  rcases listed_eq_error_iff.1 h with hcount | ⟨-, hfault⟩
  · exact .inr hcount
  · obtain ⟨piece, hmem, hliteral, he⟩ := hfault.exists_mem
    exact .inl ⟨piece, hmem, he, hliteral⟩

end Labels

/-! ### Lines -/

/-- **The error of a line is one of its faults.** -/
theorem Settings.fault_of_decode {line : Text} (h : s.decode count line = .error e) :
    s.Fault count line e := by
  rw [decode_eq] at h
  rcases Outcome.bind_eq_error h with hfeatures | ⟨features, -, h⟩
  · obtain ⟨token, hmem, hquery, hfault⟩ := Features.exists_fault_of_decode hfeatures
    exact .feature hmem hquery hfault
  rcases Outcome.bind_eq_error h with hlabels | ⟨labels, -, h⟩
  · rw [decodeLabels] at hlabels
    split at hlabels
    · cases hlabels
    · rename_i numLabels hmode
      obtain ⟨happend, hmulti, hnumLabels⟩ := labelMode_eq_indicator_iff.1 hmode
      obtain ⟨piece, hmem, hfault⟩ := Labels.exists_fault_of_indicator hlabels
      exact .labelIndex happend hmulti hnumLabels hmem hfault
    · rename_i hmode
      obtain ⟨happend, hmulti⟩ := labelMode_eq_listed_iff.1 hmode
      have hlisted := Outcome.eq_error_of_ofExcept hlabels
      rcases Labels.exists_fault_of_listed hlisted with ⟨piece, hmem, rfl, hliteral⟩ |
        ⟨expected, hcount, hlength, rfl⟩
      · exact .label happend hmulti hmem hliteral
      · exact .labelCount happend hmulti hcount hlength
  · cases h

/-- **A fault is reported truly.** -/
theorem Settings.Fault.truthful {line : Text} (h : s.Fault count line e) : e.Truthful s count := by
  cases h with
  | feature _ _ fault =>
    cases fault with
    | index _ fault =>
      cases fault with
      | malformed _ => trivial
      | zero base_eq _ => exact base_eq
      | outOfRange _ bound_le => exact ⟨rfl, bound_le⟩
    | value _ _ _ _ => trivial
  | labelIndex appendLabel multilabel numLabels _ fault =>
    cases fault with
    | malformed _ => exact ⟨appendLabel, multilabel⟩
    | zero base_eq _ => exact ⟨base_eq, appendLabel, multilabel⟩
    | outOfRange _ bound_le => exact ⟨appendLabel, multilabel, numLabels, bound_le⟩
  | label appendLabel multilabel _ _ => exact ⟨appendLabel, multilabel⟩
  | labelCount appendLabel multilabel count_eq length_ne =>
    exact ⟨appendLabel, multilabel, count_eq, length_ne⟩

end SvmLight
