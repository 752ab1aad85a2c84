import SvmLight.Proofs.Format
import SvmLight.Proofs.Reader.Events
import SvmLight.Proofs.RoundTrip

/-!
# Both ways of counting

The same data can be written with indices that count from zero and with indices that count from
one. It does not matter which way is taken, as long as the settings tell: both lines are decoded to
the same record, or both fail at the same place and for the same reason.

* `Cell`, `LabelField` — what is written, before it is decided how to count.
* `Outcome.Agree` — two computations come to the same.
* `Features.decode_agree`, `Labels.indicator_written` — the features and the labels of a line.
* `Settings.decode_countedFrom_agree` — **both ways of counting agree**.
-/

namespace SvmLight

/-! ### Data and how it is written -/

/-- A text that is to be the value at a position; it may be no literal, and the position may be
beyond the last feature. -/
structure Cell where
  /-- counted from zero -/
  position : Nat
  /-- the text of the value -/
  text : Text
deriving DecidableEq

/-- The feature token of a cell. -/
def Cell.token (base : IndexBase) (cell : Cell) : Text :=
  Numeral.natural (base.written cell.position) ++ Features.mark :: cell.text

/-- The label field that lists some labels by their positions, which are counted from zero. -/
def Labels.written (base : IndexBase) (positions : List Nat) : Text :=
  Text.join ',' (positions.map fun position => Numeral.natural (base.written position))

/-- What stands in front of the features. -/
inductive LabelField where
  /-- labels, by their positions -/
  | indices (positions : List Nat)
  /-- any other text -/
  | plain (text : Text)

/-- The text of a label field. Only indices depend on how they are counted. -/
def LabelField.text (base : IndexBase) : LabelField → Text
  | .indices positions => Labels.written base positions
  | .plain text => text

/-- A line of data: the label field and the cells, joined by spaces. -/
def Line.ofCells (base : IndexBase) (field : LabelField) (cells : List Cell) : Text :=
  Text.join ' ' (field.text base :: cells.map (·.token base))

/-- The same settings, with indices that count from a certain base. -/
def Settings.countedFrom (s : Settings) (base : IndexBase) : Settings := { s with indexBase := base }

example : Line.ofCells .one (.indices [0, 2]) [⟨1, ['x']⟩, ⟨0, []⟩] = "1,3 2:x 1:".toList := by
  decide

/-- A text that can stand in a line anywhere. -/
def Text.Solid (t : Text) : Prop := ∀ c ∈ t, Text.isBlank c = false ∧ c ≠ Line.commentMark

/-- A label field that can be written in both bases for settings that differ only in these. -/
inductive LabelField.Suits (s : Settings) : LabelField → Prop where
  /-- labels are indices, or nobody looks at them -/
  | indices {positions : List Nat} (mode : s.labelMode ≠ .listed) (ne_nil : positions ≠ [])
      (lt : ∀ position ∈ positions, position < IndexBase.limit) : Suits s (.indices positions)
  /-- labels are listed, or nobody looks at them -/
  | plain {text : Text} (mode : ∀ n, s.labelMode ≠ .indicator n) (ne_nil : text ≠ [])
      (solid : text.Solid) : Suits s (.plain text)

/-! ### Agreement -/

/-- Two computations that come to the same: one value, or two errors that say the same. -/
inductive Outcome.Agree {ε α : Type} (Same : ε → ε → Prop) : Outcome ε α → Outcome ε α → Prop where
  /-- they have one value -/
  | ok (value : α) : Agree Same (.ok value) (.ok value)
  /-- they both fail -/
  | error {e e' : ε} (same : Same e e') : Agree Same (.error e) (.error e')

/-- A cell that gives a value where there are so many features. -/
structure Cell.Valid (numFeatures : Nat) (cell : Cell) : Prop where
  /-- there is such a feature -/
  position_lt : cell.position < numFeatures
  /-- the text is a literal -/
  isLiteral : Double.IsLiteral cell.text

/-- What is reported about a cell where indices count from zero, and where they count from one. -/
inductive Cell.SameFault (numFeatures : Nat) (cell : Cell) : DecodeError × DecodeError → Prop where
  /-- there is no such feature; both errors have the position, and the number of features -/
  | outOfRange (le : numFeatures ≤ cell.position) :
      SameFault numFeatures cell
        (.indexOutOfRange .feature cell.position numFeatures,
          .indexOutOfRange .feature cell.position numFeatures)
  /-- there is one, but the text is no literal; each error has its own token -/
  | malformed (position_lt : cell.position < numFeatures)
      (not_literal : ¬Double.IsLiteral cell.text) :
      SameFault numFeatures cell
        (.malformedValue (cell.token .zero), .malformedValue (cell.token .one))

/-- Errors about the same cell, which is the first one that gives no value. -/
def SameCell (numFeatures : Nat) (cells : List Cell) (e e' : DecodeError) : Prop :=
  LeftmostFault (Cell.Valid numFeatures) (Cell.SameFault numFeatures) cells (e, e')

/-- Errors about the same part of a line. -/
inductive Settings.SamePart (s : Settings) (count : Option Nat) (field : LabelField)
    (cells : List Cell) : DecodeError → DecodeError → Prop where
  /-- about the first cell that gives no value -/
  | cell {e e' : DecodeError} (same : SameCell s.numFeatures cells e e') :
      SamePart s count field cells e e'
  /-- if there is none, about the label field, and then it is one error -/
  | field {e : DecodeError} (valid : ∀ cell ∈ cells, cell.Valid s.numFeatures)
      (fault : ∀ base, (s.countedFrom base).decodeLabels count (field.text base) = .error e) :
      SamePart s count field cells e e

/-- **Decoding lists in two ways.** If each piece is good and decoded to one value, or fails in both
ways, then so does the list, and it fails both times at its leftmost piece that does. -/
theorem mapM_cases {α β ε : Type} {f g : α → Except ε β} {Good : α → Prop}
    {Same : α → ε × ε → Prop} {xs : List α}
    (h : ∀ x ∈ xs, (Good x ∧ ∃ y, f x = .ok y ∧ g x = .ok y) ∨
      ∃ e e', f x = .error e ∧ g x = .error e' ∧ Same x (e, e')) :
    ((∀ x ∈ xs, Good x) ∧ ∃ ys, xs.mapM f = .ok ys ∧ xs.mapM g = .ok ys) ∨
      ∃ e e', xs.mapM f = .error e ∧ xs.mapM g = .error e' ∧
        LeftmostFault Good Same xs (e, e') := by
  induction xs with
  | nil => exact .inl ⟨by simp, [], rfl, rfl⟩
  | cons x xs ih =>
    obtain ⟨hx, hxs⟩ := List.forall_mem_cons.1 h
    rw [List.mapM_cons, List.mapM_cons]
    rcases hx with ⟨hgood, y, hf, hg⟩ | ⟨e, e', hf, hg, hsame⟩
    · rw [hf, hg]
      rcases ih hxs with ⟨hall, ys, hfs, hgs⟩ | ⟨e, e', hfs, hgs, hfault⟩
      · rw [hfs, hgs]
        exact .inl ⟨List.forall_mem_cons.2 ⟨hgood, hall⟩, y :: ys, rfl, rfl⟩
      · rw [hfs, hgs]
        exact .inr ⟨e, e', rfl, rfl, hfault.cons hgood⟩
    · rw [hf, hg]
      exact .inr ⟨e, e', rfl, rfl, .head hsame xs⟩

/-- Decoding a list depends on what its pieces are decoded to. -/
theorem mapM_congr_left {α β ε : Type} {f g : α → Except ε β} {xs : List α}
    (h : ∀ x ∈ xs, f x = g x) : xs.mapM f = xs.mapM g := by
  induction xs with
  | nil => rfl
  | cons x xs ih =>
    obtain ⟨hx, hxs⟩ := List.forall_mem_cons.1 h
    rw [List.mapM_cons, List.mapM_cons, hx, ih hxs]

/-! ### Features -/

namespace Features

variable {s : Settings} {base : IndexBase} {cell : Cell} {cells : List Cell}

/-- A cell is decoded to its position and the value of its text. -/
theorem entry_token (h : cell.position < IndexBase.limit) :
    entry (s.countedFrom base) (cell.token base) =
      if cell.position < s.numFeatures then
        match Double.ofText? cell.text with
        | some value => .ok (cell.position, value)
        | none => .error (.malformedValue (cell.token base))
      else .error (.indexOutOfRange .feature cell.position s.numFeatures) := by
  refine (entry_eq (parts_indexed _ cell.text)).trans ?_
  dsimp only [Settings.countedFrom]
  rw [IndexBase.decode_natural h]
  by_cases hlt : cell.position < s.numFeatures
  · rw [if_pos hlt, if_pos hlt]
    rfl
  · rw [if_neg hlt, if_neg hlt]

/-- Either base gives the same value for a cell, or the same fault. -/
theorem entry_token_cases (h : cell.position < IndexBase.limit) :
    (cell.Valid s.numFeatures ∧ ∃ x, entry (s.countedFrom .zero) (cell.token .zero) = .ok x ∧
        entry (s.countedFrom .one) (cell.token .one) = .ok x) ∨
      ∃ e e', entry (s.countedFrom .zero) (cell.token .zero) = .error e ∧
        entry (s.countedFrom .one) (cell.token .one) = .error e' ∧
        cell.SameFault s.numFeatures (e, e') := by
  rw [entry_token h, entry_token h]
  by_cases hlt : cell.position < s.numFeatures
  · rw [if_pos hlt, if_pos hlt]
    cases hvalue : Double.ofText? cell.text with
    | some value =>
      have hliteral := Double.isSome_ofText?_iff.1 (Option.isSome_of_eq_some hvalue)
      exact .inl ⟨⟨hlt, hliteral⟩, _, rfl, rfl⟩
    | none =>
      refine .inr ⟨_, _, rfl, rfl, .malformed hlt ?_⟩
      rw [← Double.isSome_ofText?_iff, hvalue]
      exact Bool.false_ne_true
  · rw [if_neg hlt, if_neg hlt]
    exact .inr ⟨_, _, rfl, rfl, .outOfRange (Nat.le_of_not_lt hlt)⟩

/-- The tokens of cells are all features, so none is skipped. -/
theorem decode_tokens (hs : s.numFeatures < 2 ^ 60) (base : IndexBase) (cells : List Cell) :
    decode (s.countedFrom base) (cells.map (·.token base)) =
      (Outcome.ofExcept (cells.mapM fun cell => entry (s.countedFrom base) (cell.token base)) >>=
        fun entries => .ok (scatter s.numFeatures .zero entries)) := by
  have hkept : (cells.map (·.token base)).filter (!isQuery ·) = cells.map (·.token base) := by
    rw [List.filter_eq_self]
    intro token hmem
    obtain ⟨cell, -, rfl⟩ := List.mem_map.1 hmem
    rw [Cell.token, isQuery_indexed]
    rfl
  have hs' : (s.countedFrom base).numFeatures < 2 ^ 60 := hs
  rw [decode_eq hs', hkept, List.mapM_map]
  rfl

/-- **Cells make one row in both bases**, or both times the first cell fails that gives no value. -/
theorem decode_agree (hs : s.numFeatures < 2 ^ 60)
    (hcells : ∀ cell ∈ cells, cell.position < IndexBase.limit) :
    ((∀ cell ∈ cells, cell.Valid s.numFeatures) ∧
        ∃ row, ∀ base, decode (s.countedFrom base) (cells.map (·.token base)) = .ok row) ∨
      ∃ e e', decode (s.countedFrom .zero) (cells.map (·.token .zero)) = .error e ∧
        decode (s.countedFrom .one) (cells.map (·.token .one)) = .error e' ∧
        SameCell s.numFeatures cells e e' := by
  rcases mapM_cases fun cell hmem => entry_token_cases (s := s) (hcells cell hmem) with
    ⟨hvalid, entries, hzero, hone⟩ | ⟨e, e', hzero, hone, hsame⟩
  · refine .inl ⟨hvalid, scatter s.numFeatures .zero entries, ?_⟩
    intro base
    rw [decode_tokens hs]
    cases base with
    | zero =>
      rw [hzero]
      rfl
    | one =>
      rw [hone]
      rfl
  · refine .inr ⟨e, e', ?_, ?_, hsame⟩
    · rw [decode_tokens hs, hzero]
      rfl
    · rw [decode_tokens hs, hone]
      rfl

end Features

/-! ### Label fields -/

namespace Labels

variable {base : IndexBase} {positions : List Nat} {n : Nat} {e : DecodeError}

/-- Listed positions are cut apart again: there is no comma in an index. -/
theorem pieces_written (hne : positions ≠ []) (base : IndexBase) :
    pieces (written base positions) =
      positions.map fun position => Numeral.natural (base.written position) := by
  apply List.splitOn_intercalate
  · intro t ht hcomma
    obtain ⟨position, -, rfl⟩ := List.mem_map.1 ht
    exact absurd (Numeral.isDigit_of_mem_natural hcomma) (by decide)
  · simpa using hne

/-- Positions are decoded without regard to the base that their indices were written in. -/
theorem indicator_written (hne : positions ≠ [])
    (hlt : ∀ position ∈ positions, position < IndexBase.limit) (base : IndexBase) (n : Nat) :
    indicator base n (written base positions) =
      (Outcome.reserve n bytesPerLabel >>= fun _ =>
        Outcome.ofExcept (positions.mapM fun position =>
          if position < n then .ok position else .error (.indexOutOfRange .label position n)) >>=
        fun indices => .ok (scatter n (.int 0) (indices.map fun index => (index, .int 1)))) := by
  have hdecode : (pieces (written base positions)).mapM
      (fun piece => base.decode .label n piece piece) =
        positions.mapM fun position =>
          if position < n then .ok position else .error (.indexOutOfRange .label position n) := by
    rw [pieces_written hne, List.mapM_map]
    exact mapM_congr_left fun position hmem => IndexBase.decode_natural (hlt position hmem)
  rw [indicator, hdecode]
  rfl

/-- The error of listed positions is that the leftmost one that is out of range is. -/
theorem fault_of_indicator_written (hne : positions ≠ [])
    (hlt : ∀ position ∈ positions, position < IndexBase.limit)
    (h : indicator base n (written base positions) = .error e) :
    LeftmostFault (· < n) (fun position e => n ≤ position ∧ e = .indexOutOfRange .label position n)
      positions e := by
  rw [indicator_written hne hlt] at h
  have hmap := Outcome.ofExcept_map_eq_error_iff.1 (Outcome.reserve_bind_eq_error h)
  refine (mapM_eq_error_iff ?_ ?_).1 hmap
  · intro position
    by_cases hposition : position < n
    · simp [hposition]
    · simp [hposition]
  · intro position e
    by_cases hposition : position < n
    · simp [hposition]
    · simp [hposition, Nat.le_of_not_lt hposition, eq_comm]

end Labels

/-! ### Lines -/

/-- A text with no blank and no comment mark is a token. -/
theorem Text.Solid.isToken {t : Text} (h : t.Solid) (hne : t ≠ []) : Line.IsToken t :=
  Line.IsToken.of_not_blank hne h

theorem Numeral.solid_natural (n : Nat) : (natural n).Solid :=
  fun _ hc => (Value.isSymbol_of_mem_natural hc).uncut

theorem Cell.solid_token {cell : Cell} (h : cell.text.Solid) (base : IndexBase) :
    (cell.token base).Solid := by
  intro c hc
  rcases List.mem_append.1 hc with hindex | hvalue
  · exact Numeral.solid_natural _ c hindex
  · rcases List.mem_cons.1 hvalue with rfl | hvalue
    · decide
    · exact h c hvalue

theorem Cell.token_ne_nil (base : IndexBase) (cell : Cell) : cell.token base ≠ [] :=
  List.append_ne_nil_of_left_ne_nil (Numeral.natural_ne_nil _) _

namespace Settings

variable {s : Settings} {count : Option Nat} {field : LabelField} {cells : List Cell}

theorem solid_field (h : field.Suits s) (base : IndexBase) :
    (field.text base).Solid ∧ field.text base ≠ [] := by
  cases h with
  | plain _ ne_nil solid => exact ⟨solid, ne_nil⟩
  | @indices positions _ ne_nil _ =>
    constructor
    · intro c hc
      rcases Text.eq_or_mem_of_mem_join hc with rfl | ⟨t, ht, hc⟩
      · decide
      · obtain ⟨position, -, rfl⟩ := List.mem_map.1 ht
        exact Numeral.solid_natural _ c hc
    · obtain ⟨position, positions, rfl⟩ := List.exists_cons_of_ne_nil ne_nil
      rw [LabelField.text, Labels.written, List.map_cons, Text.join_cons]
      exact List.append_ne_nil_of_left_ne_nil (Numeral.natural_ne_nil _) _

/-- A line of data has the label field and the tokens that it was written from. -/
theorem fields_ofCells (hfield : field.Suits s) (hcells : ∀ cell ∈ cells, cell.text.Solid)
    (base : IndexBase) :
    Line.fields (Line.ofCells base field cells) =
      (field.text base, cells.map (·.token base)) := by
  obtain ⟨hsolid, hne⟩ := solid_field hfield base
  have htokens : ∀ t ∈ cells.map (·.token base), Line.IsToken t := by
    intro t ht
    obtain ⟨cell, hmem, rfl⟩ := List.mem_map.1 ht
    exact (Cell.solid_token (hcells cell hmem) base).isToken (cell.token_ne_nil base)
  have hfirst : ∀ c ∈ (field.text base).head?, Text.isBlank c = false :=
    fun c hc => (hsolid c (List.mem_of_head? hc)).1
  rw [Line.ofCells, Text.join_cons, Line.fields,
    Line.tokens_append (hsolid.isToken hne) hfirst htokens]

/-- The label field is decoded alike. -/
theorem decodeLabels_field (h : field.Suits s) (count : Option Nat) (base : IndexBase) :
    (s.countedFrom base).decodeLabels count (field.text base) =
      (s.countedFrom .zero).decodeLabels count (field.text .zero) := by
  have hmode : ∀ base, (s.countedFrom base).labelMode = s.labelMode := fun _ => rfl
  rw [decodeLabels, decodeLabels, hmode, hmode]
  cases h with
  | plain mode _ _ =>
    cases hlabels : s.labelMode with
    | omitted => rfl
    | indicator n => exact absurd hlabels (mode n)
    | listed => rfl
  | indices mode ne_nil lt =>
    cases hlabels : s.labelMode with
    | omitted => rfl
    | indicator n =>
      dsimp only [LabelField.text, countedFrom]
      rw [Labels.indicator_written ne_nil lt, Labels.indicator_written ne_nil lt]
    | listed => exact absurd hlabels mode

/-- **A line is decoded alike in both bases.** -/
theorem decode_ofCells (hs : s.Fits) (hfield : field.Suits s)
    (hcells : ∀ cell ∈ cells, cell.position < IndexBase.limit)
    (hsolid : ∀ cell ∈ cells, cell.text.Solid) (count : Option Nat) :
    Outcome.Agree (s.SamePart count field cells)
      ((s.countedFrom .zero).decode count (Line.ofCells .zero field cells))
      ((s.countedFrom .one).decode count (Line.ofCells .one field cells)) := by
  rw [decode_eq, decode_eq, fields_ofCells hfield hsolid, fields_ofCells hfield hsolid]
  dsimp only
  rcases Features.decode_agree hs.features hcells with ⟨hvalid, row, hrow⟩ |
    ⟨e, e', hzero, hone, hsame⟩
  · rw [hrow, hrow, Outcome.ok_bind, Outcome.ok_bind, decodeLabels_field hfield count .one]
    cases hlabels : (s.countedFrom .zero).decodeLabels count (field.text .zero) with
    | ok labels => exact .ok _
    | error e =>
      refine .error (.field hvalid fun base => ?_)
      rw [decodeLabels_field hfield, hlabels]
    | oversize =>
      have hs' : (s.countedFrom .zero).Fits := ⟨hs.features, hs.labels⟩
      exact absurd hlabels (decodeLabels_ne_oversize hs' _ _)
  · rw [hzero, hone]
    exact .error (.cell hsame)

/-- Records of settings that differ in the base only make the same number of labels known. -/
theorem readEvent_ofCells
    (h : Outcome.Agree (s.SamePart count field cells)
      ((s.countedFrom .zero).decode count (Line.ofCells .zero field cells))
      ((s.countedFrom .one).decode count (Line.ofCells .one field cells))) (place : Place) :
    ((s.countedFrom .zero).readEvent count (.ok (some ⟨Line.ofCells .zero field cells, place⟩))).2 =
      ((s.countedFrom .one).readEvent count
        (.ok (some ⟨Line.ofCells .one field cells, place⟩))).2 := by
  simp only [readEvent]
  generalize (s.countedFrom .zero).decode count (Line.ofCells .zero field cells) = x at h
  generalize (s.countedFrom .one).decode count (Line.ofCells .one field cells) = y at h
  cases h with
  | ok record => rfl
  | error _ => rfl

/-- **Both ways of counting agree.** Write the same cells, and the same labels, with indices that
count from zero and with indices that count from one. Then the tokens make the same row, or both
times the first cell that gives no value is reported, and of an index that is out of range the same
position and the same bound. The label fields make the same indicator or have the same fault. So
both lines make one record or have the same fault, and the number of labels that is known behind
them is the same. -/
theorem decode_countedFrom_agree (s : Settings) (cells : List Cell)
    (hcells : ∀ cell ∈ cells, cell.position < IndexBase.limit) :
    (s.numFeatures < 2 ^ 60 → Outcome.Agree (SameCell s.numFeatures cells)
        (Features.decode (s.countedFrom .zero) (cells.map (·.token .zero)))
        (Features.decode (s.countedFrom .one) (cells.map (·.token .one)))) ∧
      (∀ n positions, positions ≠ [] → (∀ position ∈ positions, position < IndexBase.limit) →
        Labels.indicator .zero n (Labels.written .zero positions) =
            Labels.indicator .one n (Labels.written .one positions) ∧
          (n < 2 ^ 59 → Labels.indicator .zero n (Labels.written .zero positions) ≠ .oversize) ∧
          ∀ e, Labels.indicator .zero n (Labels.written .zero positions) = .error e →
            LeftmostFault (· < n)
              (fun position e => n ≤ position ∧ e = .indexOutOfRange .label position n)
              positions e) ∧
      ∀ count field place, s.Fits → field.Suits s → (∀ cell ∈ cells, cell.text.Solid) →
        Outcome.Agree (s.SamePart count field cells)
            ((s.countedFrom .zero).decode count (Line.ofCells .zero field cells))
            ((s.countedFrom .one).decode count (Line.ofCells .one field cells)) ∧
          ((s.countedFrom .zero).readEvent count
              (.ok (some ⟨Line.ofCells .zero field cells, place⟩))).2 =
            ((s.countedFrom .one).readEvent count
              (.ok (some ⟨Line.ofCells .one field cells, place⟩))).2 := by
  refine ⟨?_, ?_, ?_⟩
  · intro hs
    rcases Features.decode_agree hs hcells with ⟨-, row, hrow⟩ | ⟨e, e', hzero, hone, hsame⟩
    · rw [hrow, hrow]
      exact .ok row
    · rw [hzero, hone]
      exact .error hsame
  · intro n positions hne hlt
    refine ⟨?_, fun hn => Labels.indicator_ne_oversize hn _ _, fun e => ?_⟩
    · rw [Labels.indicator_written hne hlt, Labels.indicator_written hne hlt]
    · exact Labels.fault_of_indicator_written hne hlt
  · intro count field place hs hfield hsolid
    have hagree := decode_ofCells hs hfield hcells hsolid count
    exact ⟨hagree, readEvent_ofCells hagree place⟩

/-- The first cell is the last feature; the second one has the last position that has an index in
both bases, and there is no such feature. The labels are the first and the last. -/
theorem decode_countedFrom_agree_edges :
    let s : Settings :=
      { plain 3 with multilabel := true, numLabels := some 4, numLabels_isSome := fun _ => rfl }
    let cells : List Cell := [⟨2, ['i', 'n', 'f']⟩, ⟨2 ^ 64 - 2, ['0']⟩]
    let field : LabelField := .indices [3, 0]
    (∀ cell ∈ cells, cell.position < IndexBase.limit) ∧ s.numFeatures < 2 ^ 60 ∧ s.Fits ∧
      field.Suits s ∧ (∀ cell ∈ cells, cell.text.Solid) ∧
      SameCell 3 cells (.indexOutOfRange .feature (2 ^ 64 - 2) 3)
        (.indexOutOfRange .feature (2 ^ 64 - 2) 3) ∧
      Labels.indicator .zero 4 (field.text .zero) = Labels.indicator .one 4 (field.text .one) ∧
      Outcome.Agree (s.SamePart none field cells)
        ((s.countedFrom .zero).decode none (Line.ofCells .zero field cells))
        ((s.countedFrom .one).decode none (Line.ofCells .one field cells)) := by
  intro s cells field
  have hcells : ∀ cell ∈ cells, cell.position < IndexBase.limit := by decide
  have hs : s.Fits := ⟨by decide, fun _ n hn => by cases hn; decide⟩
  have hpositions : ∀ position ∈ [3, 0], position < IndexBase.limit := by decide
  have hfield : field.Suits s := .indices (by decide) (by simp) hpositions
  have hsolid : ∀ cell ∈ cells, cell.text.Solid := by
    simp only [cells, List.mem_cons, List.not_mem_nil, or_false, forall_eq_or_imp, forall_eq,
      Text.Solid]
    decide
  obtain ⟨hfeatures, hlabels, hline⟩ := decode_countedFrom_agree s cells hcells
  have hzero : Features.decode (s.countedFrom .zero) (cells.map (·.token .zero)) =
      .error (.indexOutOfRange .feature (2 ^ 64 - 2) 3) := by decide +kernel
  have hone : Features.decode (s.countedFrom .one) (cells.map (·.token .one)) =
      .error (.indexOutOfRange .feature (2 ^ 64 - 2) 3) := by decide +kernel
  have hcell := hfeatures hs.features
  rw [hzero, hone] at hcell
  cases hcell with
  | error same =>
    exact ⟨hcells, hs.features, hs, hfield, hsolid, same,
      (hlabels 4 [3, 0] (by simp) hpositions).1, (hline none field ⟨1, none⟩ hs hfield hsolid).1⟩

end Settings

end SvmLight
