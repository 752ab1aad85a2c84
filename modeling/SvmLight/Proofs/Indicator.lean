import SvmLight.Proofs.Decode
import SvmLight.Proofs.Index

/-!
# Indicators

A field of label indices is a set of labels: neither the order of its pieces matters, nor how often
a label is listed, nor how its index is written.

* `Labels.Denotes`, `Labels.Lists` — the label that a piece denotes, and the labels that a field
  lists.
* `Labels.IsIndicator` — the vector that holds a one for each listed label, and zeros elsewhere.
* `Labels.IndexFault` — the fault of the leftmost piece that denotes no label.
* `Labels.indicator_lists` — **indicators**: which fields have one, what it is, and which fault is
  reported if there is none.
-/

namespace SvmLight

/-- Placing one value at some positions of a row. -/
theorem getElem?_scatter_map {α : Type} {size : Nat} {positions : List Nat} (fill x : α)
    (h : ∀ i ∈ positions, i < size) (i : Nat) :
    (scatter size fill (positions.map fun i => (i, x)))[i]? =
      if i ∈ positions then some x else if i < size then some fill else none := by
  have hrow : ∀ entry ∈ positions.map fun i => (i, x),
      (List.replicate size x)[entry.1]? = some entry.2 := by
    intro entry hentry
    obtain ⟨j, hj, rfl⟩ := List.mem_map.1 hentry
    rw [List.getElem?_replicate, if_pos (h j hj)]
  have hfst : (positions.map fun i => (i, x)).map Prod.fst = positions := by
    rw [List.map_map]
    exact List.map_id' positions
  rw [scatter, Array.getElem?_toList, getElem?_placed hrow (by simp), hfst, List.getElem?_replicate,
    Array.getElem?_replicate]
  split
  · rename_i hmem
    rw [if_pos (h i hmem)]
  · rfl

namespace Labels

variable {base : IndexBase} {numLabels : Nat} {field : Text} {labels : List Value}

/-! ### Fields as sets -/

/-- A piece that denotes the label at a position. -/
structure Denotes (base : IndexBase) (numLabels : Nat) (piece : Text) (position : Nat) : Prop where
  /-- the index of the position is written -/
  index : Numeral.IsIndex piece (base.written position)
  /-- there is a label at the position -/
  position_lt : position < numLabels

/-- A field that lists the label at a position. -/
def Lists (base : IndexBase) (numLabels : Nat) (field : Text) (position : Nat) : Prop :=
  ∃ piece ∈ pieces field, Denotes base numLabels piece position

/-- A piece that denotes some label. -/
def IsLabelIndex (base : IndexBase) (numLabels : Nat) (piece : Text) : Prop :=
  ∃ position, Denotes base numLabels piece position

/-- The leftmost piece of a field that denotes no label, and what is wrong with it. -/
abbrev IndexFault (base : IndexBase) (numLabels : Nat) (field : Text) : DecodeError → Prop :=
  LeftmostFault (IsLabelIndex base numLabels)
    (fun piece => base.Fault .label numLabels piece piece) (pieces field)

/-- A vector with a one for each label that a field lists, and zeros elsewhere. -/
structure IsIndicator (base : IndexBase) (numLabels : Nat) (field : Text) (labels : List Value) :
    Prop where
  /-- there is a value for every label -/
  length_eq : labels.length = numLabels
  /-- labels that are listed -/
  one : ∀ {position}, Lists base numLabels field position → labels[position]? = some (.int 1)
  /-- labels that are not -/
  zero : ∀ {position}, position < numLabels → ¬Lists base numLabels field position →
    labels[position]? = some (.int 0)

theorem Lists.position_lt {position : Nat} (h : Lists base numLabels field position) :
    position < numLabels := by
  obtain ⟨piece, -, hpiece⟩ := h
  exact hpiece.position_lt

/-- A field with the same pieces lists the same labels. -/
theorem lists_congr {field' : Text} (h : ∀ piece, piece ∈ pieces field ↔ piece ∈ pieces field')
    (position : Nat) :
    Lists base numLabels field position ↔ Lists base numLabels field' position := by
  simp only [Lists, h]

/-- **Fields that list the same labels have the same indicator.** -/
theorem IsIndicator.eq_of_lists {field' : Text} {labels' : List Value}
    (h : IsIndicator base numLabels field labels) (h' : IsIndicator base numLabels field' labels')
    (hlists : ∀ position,
      Lists base numLabels field position ↔ Lists base numLabels field' position) :
    labels = labels' := by
  apply List.ext_getElem?
  intro position
  by_cases hlisted : Lists base numLabels field position
  · rw [h.one hlisted, h'.one ((hlists position).1 hlisted)]
  · rcases Nat.lt_or_ge position numLabels with hlt | hge
    · rw [h.zero hlt hlisted, h'.zero hlt fun hlisted' => hlisted ((hlists position).2 hlisted')]
    · rw [List.getElem?_eq_none (h.length_eq ▸ hge), List.getElem?_eq_none (h'.length_eq ▸ hge)]

/-! ### Decoding -/

theorem decode_piece_eq_ok_iff {piece : Text} {position : Nat} :
    base.decode .label numLabels piece piece = .ok position ↔
      Denotes base numLabels piece position := by
  rw [IndexBase.decode_eq_ok_iff]
  exact ⟨fun h => ⟨h.1, h.2⟩, fun h => ⟨h.index, h.position_lt⟩⟩

/-- What is placed at the positions of the pieces is the indicator. -/
theorem isIndicator_scatter {positions : List Nat}
    (h : (pieces field).mapM (fun piece => base.decode .label numLabels piece piece) =
      .ok positions) :
    IsIndicator base numLabels field
      (scatter numLabels (.int 0) (positions.map fun position => (position, .int 1))) := by
  have hmem : ∀ position, position ∈ positions ↔ Lists base numLabels field position := by
    intro position
    simp only [mem_mapM_iff h, decode_piece_eq_ok_iff, Lists]
  have hlt : ∀ position ∈ positions, position < numLabels :=
    fun position hposition => ((hmem position).1 hposition).position_lt
  constructor
  · exact length_scatter _ _ _
  · intro position hlisted
    rw [getElem?_scatter_map _ _ hlt, if_pos ((hmem position).2 hlisted)]
  · intro position hposition hlisted
    rw [getElem?_scatter_map _ _ hlt, if_neg fun h => hlisted ((hmem position).1 h),
      if_pos hposition]

/-- A field is decoded if each of its pieces denotes a label. -/
theorem exists_indicator_eq_ok_iff (hn : numLabels < 2 ^ 59) :
    (∃ labels, indicator base numLabels field = .ok labels) ↔
      ∀ piece ∈ pieces field, IsLabelIndex base numLabels piece := by
  simp only [indicator_eq hn, Outcome.ofExcept_map_eq_ok_iff, IsLabelIndex,
    ← decode_piece_eq_ok_iff]
  rw [← exists_mapM_eq_ok_iff]
  constructor
  · rintro ⟨_, positions, hmap, -⟩
    exact ⟨positions, hmap⟩
  · rintro ⟨positions, hmap⟩
    exact ⟨_, positions, hmap, rfl⟩

theorem isIndicator_of_indicator (hn : numLabels < 2 ^ 59)
    (h : indicator base numLabels field = .ok labels) :
    IsIndicator base numLabels field labels := by
  rw [indicator_eq hn, Outcome.ofExcept_map_eq_ok_iff] at h
  obtain ⟨positions, hmap, rfl⟩ := h
  exact isIndicator_scatter hmap

/-- The error of a field is the fault of its leftmost bad piece. -/
theorem indicator_eq_error_iff (hn : numLabels < 2 ^ 59) {e : DecodeError} :
    indicator base numLabels field = .error e ↔ IndexFault base numLabels field e := by
  rw [indicator_eq hn, Outcome.ofExcept_map_eq_error_iff]
  apply mapM_eq_error_iff
  · intro piece
    simp only [decode_piece_eq_ok_iff, IsLabelIndex]
  · intro piece e
    exact IndexBase.decode_eq_error_iff

/-- Pieces can be put in any order, and repeated. -/
theorem indicator_congr (hn : numLabels < 2 ^ 59) {field' : Text}
    (hpieces : ∀ piece, piece ∈ pieces field ↔ piece ∈ pieces field')
    (h : indicator base numLabels field = .ok labels) :
    indicator base numLabels field' = .ok labels := by
  have hgood := (exists_indicator_eq_ok_iff hn).1 ⟨labels, h⟩
  obtain ⟨labels', h'⟩ := (exists_indicator_eq_ok_iff hn).2 fun piece hpiece =>
    hgood piece ((hpieces piece).2 hpiece)
  have heq := (isIndicator_of_indicator hn h).eq_of_lists (isIndicator_of_indicator hn h')
    (lists_congr hpieces)
  rw [h', heq]

/-- **Indicators.** A field has an indicator if and only if each of its pieces denotes a label; else
the fault of its leftmost other piece is reported. Fields that list the same labels have the same
indicator, and of fields with the same pieces, in whatever order and number, either all have one or
none has. -/
theorem indicator_lists (hn : numLabels < 2 ^ 59) (base : IndexBase) (field : Text) :
    ((∃ labels, indicator base numLabels field = .ok labels) ↔
        ∀ piece ∈ pieces field, IsLabelIndex base numLabels piece) ∧
      (∀ labels, indicator base numLabels field = .ok labels →
        IsIndicator base numLabels field labels) ∧
      (∀ e, indicator base numLabels field = .error e ↔ IndexFault base numLabels field e) ∧
      indicator base numLabels field ≠ .oversize ∧
      (∀ field' labels labels', indicator base numLabels field = .ok labels →
        indicator base numLabels field' = .ok labels' →
        (∀ position, Lists base numLabels field position ↔ Lists base numLabels field' position) →
        labels = labels') ∧
      ∀ field', (∀ piece, piece ∈ pieces field ↔ piece ∈ pieces field') →
        ∀ labels, indicator base numLabels field = .ok labels ↔
          indicator base numLabels field' = .ok labels := by
  refine ⟨exists_indicator_eq_ok_iff hn, fun labels => isIndicator_of_indicator hn,
    fun e => indicator_eq_error_iff hn, indicator_ne_oversize hn base field, ?_, ?_⟩
  · intro field' labels labels' h h' hlists
    exact (isIndicator_of_indicator hn h).eq_of_lists (isIndicator_of_indicator hn h') hlists
  · intro field' hpieces labels
    exact ⟨indicator_congr hn hpieces, indicator_congr hn fun piece => (hpieces piece).symm⟩

/-- Indices count from one. Two fields list the first label and the third, one of them twice and
with a plus sign; a third field has two bad pieces, and an empty one is a bad piece. -/
theorem indicator_lists_twice :
    let row : List Value := [.int 1, .int 0, .int 1]
    3 < 2 ^ 59 ∧ IsIndicator .one 3 "+03,1,3".toList row ∧
      IsIndicator .one 3 "1,3".toList row ∧
      IndexFault .one 3 "1,4,0".toList (.indexOutOfRange .label 3 3) ∧
      IndexFault .one 3 [] (.malformedIndex .label []) := by
  intro row
  have hn : 3 < 2 ^ 59 := by decide
  obtain ⟨-, hrow, -⟩ := indicator_lists hn .one "+03,1,3".toList
  obtain ⟨-, hrow', -⟩ := indicator_lists hn .one "1,3".toList
  obtain ⟨-, -, hfault, -⟩ := indicator_lists hn .one "1,4,0".toList
  obtain ⟨-, -, hempty, -⟩ := indicator_lists hn .one []
  exact ⟨hn, hrow _ (by decide), hrow' _ (by decide), (hfault _).1 (by decide),
    (hempty _).1 (by decide)⟩

end Labels

end SvmLight
