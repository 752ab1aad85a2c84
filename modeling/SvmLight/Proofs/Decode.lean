import Mathlib.Algebra.Ring.Nat
import Mathlib.Data.List.Forall2
import SvmLight.Decode

/-!
# Decoding and the number of labels

How decoding a line depends on the number of listed labels that is handed in, when it asks for too
much room, and what rows it makes.

* `scatter_eq` — the entries of a row make up the row.
* `decode_ne_oversize` — settings that **fit** never ask for a vector beyond the address space.
* `decode_congr` — only the tokens of a line matter.
* `decode_known_of_ok`, `decode_known_of_error` — a line read while the number of labels is open,
  and read again when it is known: what was decoded with that many labels is decoded alike, and an
  error stays the same, except that a malformed label can turn into a wrong number of labels.
* `countAfter_known` — a number that is known stays.
-/

namespace SvmLight

/-! ### Lists of pieces -/

theorem exists_of_bind_eq_ok {ε α β : Type} {x : Except ε α} {f : α → Except ε β} {b : β}
    (h : (x >>= f) = .ok b) : ∃ a, x = .ok a ∧ f a = .ok b := by
  cases x with
  | error e => cases h
  | ok a => exact ⟨a, rfl, h⟩

/-- All pieces are decoded, one by one, or the whole list is not. -/
theorem forall₂_of_mapM_eq_ok {α β ε : Type} {f : α → Except ε β} {xs : List α} {ys : List β}
    (h : xs.mapM f = .ok ys) : List.Forall₂ (fun x y => f x = .ok y) xs ys := by
  induction xs generalizing ys with
  | nil =>
    cases h
    exact List.Forall₂.nil
  | cons x xs ih =>
    rw [List.mapM_cons] at h
    rcases hx : f x with e | y
    · rw [hx] at h
      cases h
    · rcases hxs : xs.mapM f with e | ys'
      · rw [hx, hxs] at h
        cases h
      · rw [hx, hxs] at h
        cases h
        exact List.Forall₂.cons hx (ih hxs)

/-- All pieces are decoded if each of them is. -/
theorem exists_mapM_eq_ok_iff {α β ε : Type} {f : α → Except ε β} {xs : List α} :
    (∃ ys, xs.mapM f = .ok ys) ↔ ∀ x ∈ xs, ∃ y, f x = .ok y := by
  induction xs with
  | nil => exact iff_of_true ⟨[], rfl⟩ (by simp)
  | cons x xs ih =>
    rw [List.forall_mem_cons, ← ih, List.mapM_cons]
    constructor
    · rintro ⟨ys, h⟩
      rcases hx : f x with e | y
      · rw [hx] at h
        cases h
      · rcases hxs : xs.mapM f with e | ys'
        · rw [hx, hxs] at h
          cases h
        · exact ⟨⟨y, rfl⟩, ys', rfl⟩
    · rintro ⟨⟨y, hy⟩, ys, hys⟩
      rw [hy, hys]
      exact ⟨_, rfl⟩

/-- What comes from the pieces is what comes from one of them. -/
theorem mem_mapM_iff {α β ε : Type} {f : α → Except ε β} {xs : List α} {ys : List β}
    (h : xs.mapM f = .ok ys) {y : β} : y ∈ ys ↔ ∃ x ∈ xs, f x = .ok y := by
  have hall := forall₂_of_mapM_eq_ok h
  clear h
  induction hall with
  | nil => simp
  | @cons x y' xs ys hx _ ih =>
    have hy : f x = .ok y ↔ y = y' := by
      rw [hx, Except.ok.injEq, eq_comm]
    simp [ih, hy]

/-- The leftmost of some pieces that is not good, and its fault. -/
inductive LeftmostFault {α ε : Type} (Good : α → Prop) (Fault : α → ε → Prop) :
    List α → ε → Prop where
  /-- all pieces in front of it are good -/
  | leftmost {front rest : List α} {x : α} {e : ε} (good : ∀ y ∈ front, Good y)
      (fault : Fault x e) : LeftmostFault Good Fault (front ++ x :: rest) e

theorem LeftmostFault.head {α ε : Type} {Good : α → Prop} {Fault : α → ε → Prop} {x : α} {e : ε}
    (h : Fault x e) (xs : List α) : LeftmostFault Good Fault (x :: xs) e := by
  have hgood : ∀ y ∈ ([] : List α), Good y := by simp
  exact .leftmost hgood h

theorem LeftmostFault.cons {α ε : Type} {Good : α → Prop} {Fault : α → ε → Prop} {xs : List α}
    {x : α} {e : ε} (hx : Good x) (h : LeftmostFault Good Fault xs e) :
    LeftmostFault Good Fault (x :: xs) e := by
  cases h with
  | leftmost good fault =>
    exact .leftmost (List.forall_mem_cons.2 ⟨hx, good⟩) fault

/-- **The error of a list is the fault of its leftmost bad piece.** -/
theorem mapM_eq_error_iff {α β ε : Type} {Good : α → Prop} {Fault : α → ε → Prop}
    {f : α → Except ε β} (hgood : ∀ x, (∃ y, f x = .ok y) ↔ Good x)
    (hfault : ∀ x e, f x = .error e ↔ Fault x e) {xs : List α} {e : ε} :
    xs.mapM f = .error e ↔ LeftmostFault Good Fault xs e := by
  constructor
  · intro h
    induction xs with
    | nil => cases h
    | cons x xs ih =>
      rw [List.mapM_cons] at h
      rcases hx : f x with e' | y
      · rw [hx] at h
        cases h
        exact .head ((hfault x e).1 hx) xs
      · rcases hxs : xs.mapM f with e' | ys
        · rw [hx, hxs] at h
          cases h
          exact (ih hxs).cons ((hgood x).1 ⟨y, hx⟩)
        · rw [hx, hxs] at h
          cases h
  · rintro ⟨good, fault⟩
    rename_i front rest x
    obtain ⟨ys, hfront⟩ := exists_mapM_eq_ok_iff.2 fun y hy => (hgood y).2 (good y hy)
    rw [List.mapM_append, hfront, List.mapM_cons, (hfault x e).2 fault]
    rfl

theorem LeftmostFault.exists_mem {α ε : Type} {Good : α → Prop} {Fault : α → ε → Prop}
    {xs : List α} {e : ε} (h : LeftmostFault Good Fault xs e) : ∃ x ∈ xs, Fault x e := by
  cases h with
  | leftmost _ fault => exact ⟨_, List.mem_append_right _ List.mem_cons_self, fault⟩

/-- The error of a list is the error of one of its pieces. -/
theorem exists_mem_of_mapM_eq_error {α β ε : Type} {f : α → Except ε β} {xs : List α} {e : ε}
    (h : xs.mapM f = .error e) : ∃ x ∈ xs, f x = .error e :=
  ((mapM_eq_error_iff (fun _ => Iff.rfl) fun _ _ => Iff.rfl).1 h).exists_mem

/-! ### Rows -/

/-- A row has as many entries as it is asked to have. -/
theorem length_scatter {α : Type} (size : Nat) (fill : α) (entries : List (Nat × α)) :
    (scatter size fill entries).length = size := by
  have hfold : ∀ row : Array α,
      (entries.foldl (fun row entry => row.setIfInBounds entry.1 entry.2) row).size = row.size := by
    induction entries with
    | nil =>
      intro row
      rfl
    | cons entry entries ih =>
      intro row
      rw [List.foldl_cons, ih, Array.size_setIfInBounds]
  rw [scatter, Array.length_toList, hfold, Array.size_replicate]

/-- Placing entries of a row, one after the other, gives the row at their positions and changes
nothing elsewhere. -/
theorem getElem?_placed {α : Type} {row : List α} {entries : List (Nat × α)}
    (h : ∀ entry ∈ entries, row[entry.1]? = some entry.2) {start : Array α}
    (hsize : start.size = row.length) (i : Nat) :
    (entries.foldl (fun row entry => row.setIfInBounds entry.1 entry.2) start)[i]? =
      if i ∈ entries.map Prod.fst then row[i]? else start[i]? := by
  induction entries generalizing start with
  | nil => rfl
  | cons entry entries ih =>
    obtain ⟨hentry, hentries⟩ := List.forall_mem_cons.1 h
    have hbound : entry.1 < start.size := by
      rw [hsize]
      exact (List.getElem?_eq_some_iff.1 hentry).1
    rw [List.foldl_cons, ih hentries (by rw [Array.size_setIfInBounds, hsize]), List.map_cons]
    by_cases hrest : i ∈ entries.map Prod.fst
    · rw [if_pos hrest, if_pos (List.mem_cons_of_mem _ hrest)]
    · rw [if_neg hrest]
      by_cases hi : entry.1 = i
      · rw [← hi, if_pos List.mem_cons_self, Array.getElem?_setIfInBounds_self_of_lt hbound, hentry]
      · have hnot : i ∉ entry.1 :: entries.map Prod.fst := by
          rw [List.mem_cons, not_or]
          exact ⟨Ne.symm hi, hrest⟩
        rw [if_neg hnot, Array.getElem?_setIfInBounds_ne hi]

/-- **The entries of a row make up the row**, if all that is not listed is the filling. -/
theorem scatter_eq {α : Type} {fill : α} {row : List α} {entries : List (Nat × α)}
    (hvalue : ∀ entry ∈ entries, row[entry.1]? = some entry.2)
    (hlisted : ∀ i x, row[i]? = some x → x ≠ fill → (i, x) ∈ entries) :
    scatter row.length fill entries = row := by
  apply List.ext_getElem?
  intro i
  rw [scatter, Array.getElem?_toList, getElem?_placed hvalue Array.size_replicate]
  split
  · rfl
  · rename_i hnot
    rw [Array.getElem?_replicate]
    cases hrow : row[i]? with
    | none => rw [if_neg (Nat.not_lt.2 (List.getElem?_eq_none_iff.1 hrow))]
    | some x =>
      have hfill : x = fill := by
        by_contra hne
        exact hnot (List.mem_map_of_mem (hlisted i x hrow hne))
      rw [if_pos (List.getElem?_eq_some_iff.1 hrow).1, hfill]

/-! ### Listed labels -/

namespace Labels

theorem length_of_listed_eq_ok {field : Text} {labels : List Value}
    (h : listed none field = .ok labels) : labels.length = (pieces field).length :=
  (forall₂_of_mapM_eq_ok h).length_eq.symm

/-- The only error of a piece is that it is no label. -/
theorem value_eq_error {piece : Text} {e : DecodeError} (h : value piece = .error e) :
    e = .malformedLabel piece := by
  rw [value] at h
  split at h
  · cases h
  · split at h
    · cases h
    · cases h
      rfl

/-- While the number of labels is open, the only error is that a piece is no label. -/
theorem malformed_of_listed_eq_error {field : Text} {e : DecodeError}
    (h : listed none field = .error e) : ∃ piece, e = .malformedLabel piece := by
  obtain ⟨piece, -, hpiece⟩ := exists_mem_of_mapM_eq_error h
  exact ⟨piece, value_eq_error hpiece⟩

/-- There is room for fewer than `2 ^ 59` labels. -/
theorem indicator_eq {numLabels : Nat} (h : numLabels < 2 ^ 59) (base : IndexBase) (field : Text) :
    indicator base numLabels field =
      (Outcome.ofExcept ((pieces field).mapM fun piece =>
          base.decode .label numLabels piece piece) >>= fun positions =>
        .ok (scatter numLabels (.int 0) (positions.map fun position => (position, .int 1)))) := by
  have hroom : (Outcome.reserve numLabels bytesPerLabel : Outcome DecodeError Unit) = .ok () := by
    apply Outcome.reserve_of_lt
    simp only [Outcome.addressSpace, bytesPerLabel]
    omega
  rw [indicator, hroom]
  rfl

theorem indicator_ne_oversize {numLabels : Nat} (h : numLabels < 2 ^ 59) (base : IndexBase)
    (field : Text) : indicator base numLabels field ≠ .oversize := by
  rw [indicator_eq h]
  refine Outcome.bind_ne_oversize (Outcome.ofExcept_ne_oversize _) ?_
  intro positions
  simp

theorem listed_some (count : Nat) (field : Text) :
    listed (some count) field =
      if (pieces field).length = count then listed none field
      else .error (.labelCountMismatch (pieces field).length count) := rfl

/-- The number of pieces is compared, and then it does not matter any more. -/
theorem listed_eq_ok_iff {count : Option Nat} {field : Text} {labels : List Value} :
    listed count field = .ok labels ↔
      (∀ expected, count = some expected → (pieces field).length = expected) ∧
        listed none field = .ok labels := by
  cases count with
  | none => simp
  | some expected =>
    rw [listed_some]
    split
    · rename_i heq
      simp [heq]
    · rename_i hne
      simp [hne]

end Labels

namespace Settings

variable {s : Settings}

/-! ### What becomes of labels -/

theorem labelMode_eq_omitted_iff : s.labelMode = .omitted ↔ s.appendLabel = false := by
  rw [labelMode]
  cases s.appendLabel with
  | false => simp
  | true =>
    rw [if_pos rfl]
    split
    · simp
    · simp

/-- Labels that are indices are kept, and they are as many as are set. -/
theorem labelMode_eq_indicator_iff {n : Nat} :
    s.labelMode = .indicator n ↔
      s.appendLabel = true ∧ s.multilabel = true ∧ s.numLabels = some n := by
  rw [labelMode]
  cases s.appendLabel with
  | false => simp
  | true =>
    rw [if_pos rfl]
    split
    · rename_i hmulti hlabels
      simp [hmulti, hlabels]
    · rename_i hnot
      simpa using fun hmulti hlabels => hnot n hmulti hlabels

/-- Labels that are listed are kept, and they are no indices. -/
theorem labelMode_eq_listed_iff :
    s.labelMode = .listed ↔ s.appendLabel = true ∧ s.multilabel = false := by
  rw [labelMode]
  cases s.appendLabel with
  | false => simp
  | true =>
    rw [if_pos rfl]
    split
    · rename_i hmulti _
      simp [hmulti]
    · rename_i hnot
      cases hmulti : s.multilabel with
      | false => simp
      | true =>
        obtain ⟨n, hn⟩ := Option.isSome_iff_exists.1 (s.numLabels_isSome hmulti)
        exact absurd hn (hnot n hmulti)

/-! ### Room -/

/-- No row of features and no row of labels is beyond the address space. -/
structure Fits (s : Settings) : Prop where
  /-- there is room for the features of a record -/
  features : s.numFeatures < 2 ^ 60
  /-- there is room for the labels of a record, where their number is set beforehand -/
  labels : s.multilabel = true → ∀ n, s.numLabels = some n → n < 2 ^ 59

/-- The settings where nothing but the number of features is set. -/
def plain (numFeatures : Nat) : Settings :=
  { numFeatures
    indexBase := .zero
    appendLabel := true
    multilabel := false
    numLabels := none
    numLabels_isSome := fun h => absurd h Bool.false_ne_true }

theorem fits_plain {n : Nat} (h : n < 2 ^ 60) : (plain n).Fits :=
  ⟨h, fun hmulti => absurd hmulti Bool.false_ne_true⟩

theorem Fits.indicator {n : Nat} (hs : s.Fits) (h : s.labelMode = .indicator n) : n < 2 ^ 59 := by
  obtain ⟨-, hmulti, hlabels⟩ := labelMode_eq_indicator_iff.1 h
  exact hs.labels hmulti n hlabels

theorem decode_eq (s : Settings) (count : Option Nat) (line : Text) :
    s.decode count line =
      (Features.decode s (Line.fields line).2 >>= fun features =>
        s.decodeLabels count (Line.fields line).1 >>= fun labels =>
          .ok ⟨features, labels⟩) := rfl

theorem decodeLabels_ne_oversize (hs : s.Fits) (count : Option Nat) (field : Text) :
    s.decodeLabels count field ≠ .oversize := by
  rw [decodeLabels]
  split
  · simp
  · rename_i n hmode
    exact Labels.indicator_ne_oversize (hs.indicator hmode) _ _
  · exact Outcome.ofExcept_ne_oversize _

theorem reserve_features (h : s.numFeatures < 2 ^ 60) :
    (Outcome.reserve s.numFeatures Features.bytesPerFeature : Outcome DecodeError Unit) =
      .ok () := by
  apply Outcome.reserve_of_lt
  simp only [Outcome.addressSpace, Features.bytesPerFeature]
  omega

theorem decodeFeatures_ne_oversize (hs : s.Fits) (tokens : List Text) :
    Features.decode s tokens ≠ .oversize := by
  rw [Features.decode, reserve_features hs.features, Outcome.ok_bind]
  refine Outcome.bind_ne_oversize (Outcome.ofExcept_ne_oversize _) ?_
  intro entries
  simp

/-- Settings that fit never ask for a vector beyond the address space. -/
theorem decode_ne_oversize (hs : s.Fits) (count : Option Nat) (line : Text) :
    s.decode count line ≠ .oversize := by
  rw [decode_eq]
  refine Outcome.bind_ne_oversize (decodeFeatures_ne_oversize hs _) ?_
  intro features
  refine Outcome.bind_ne_oversize (decodeLabels_ne_oversize hs _ _) ?_
  intro labels
  simp

/-! ### Lines -/

/-- Only the tokens of a line matter. -/
theorem decode_congr {line line' : Text} (h : Line.tokens line = Line.tokens line')
    (count : Option Nat) : s.decode count line = s.decode count line' := by
  simp only [decode, Line.fields, h]

/-! ### The number of labels

A line is decoded once with an open number of labels and once with a known one. Only listed labels
depend on it, and they are compared with it before any piece is looked at. -/

theorem decodeLabels_known (hmode : s.labelMode = .listed) (count : Nat) (field : Text) :
    s.decodeLabels (some count) field =
      if (Labels.pieces field).length = count then s.decodeLabels none field
      else .error (.labelCountMismatch (Labels.pieces field).length count) := by
  simp only [decodeLabels, hmode, Labels.listed_some]
  split <;> rfl

theorem length_of_decodeLabels_eq_ok (hmode : s.labelMode = .listed) {field : Text}
    {labels : List Value} (h : s.decodeLabels none field = .ok labels) :
    labels.length = (Labels.pieces field).length := by
  simp only [decodeLabels, hmode] at h
  rcases hlisted : Labels.listed none field with e | labels'
  · rw [hlisted] at h
    cases h
  · rw [hlisted] at h
    cases h
    exact Labels.length_of_listed_eq_ok hlisted

theorem malformed_of_decodeLabels_eq_error (hmode : s.labelMode = .listed) {field : Text}
    {e : DecodeError} (h : s.decodeLabels none field = .error e) :
    ∃ piece, e = .malformedLabel piece := by
  simp only [decodeLabels, hmode] at h
  rcases hlisted : Labels.listed none field with e' | labels
  · rw [hlisted] at h
    cases h
    exact Labels.malformed_of_listed_eq_error hlisted
  · rw [hlisted] at h
    cases h

/-- A line that was decoded is decoded alike when its number of labels is the known one. -/
theorem decode_known_of_ok (hmode : s.labelMode = .listed) {line : Text} {record : Record}
    (h : s.decode none line = .ok record) :
    s.decode (some record.labels.length) line = .ok record := by
  rw [decode_eq] at h ⊢
  obtain ⟨features, hfeatures, h⟩ := Outcome.bind_eq_ok h
  obtain ⟨labels, hlabels, h⟩ := Outcome.bind_eq_ok h
  cases h
  rw [hfeatures, Outcome.ok_bind, decodeLabels_known hmode,
    if_pos (length_of_decodeLabels_eq_ok hmode hlabels).symm, hlabels, Outcome.ok_bind]

/-- A line that failed fails again whatever number of labels is known by then: with the same error,
or with a wrong number of labels in place of a malformed label. -/
theorem decode_known_of_error (hmode : s.labelMode = .listed) {line : Text} {e : DecodeError}
    (h : s.decode none line = .error e) (count : Nat) :
    s.decode (some count) line = .error e ∨
      ∃ token found, e = .malformedLabel token ∧
        s.decode (some count) line = .error (.labelCountMismatch found count) := by
  rw [decode_eq] at h ⊢
  -- the features come first, and no number of labels is looked at for them
  rcases Outcome.bind_eq_error h with hfeatures | ⟨features, hfeatures, h⟩
  · rw [hfeatures]
    exact .inl rfl
  rw [hfeatures, Outcome.ok_bind, decodeLabels_known hmode]
  rcases Outcome.bind_eq_error h with hlabels | ⟨labels, -, h⟩
  · obtain ⟨token, rfl⟩ := malformed_of_decodeLabels_eq_error hmode hlabels
    split
    · rw [hlabels]
      exact .inl rfl
    · exact .inr ⟨token, _, rfl, rfl⟩
  · cases h

/-- A number of labels that is known stays. -/
theorem countAfter_known (count : Nat) (record : Record) :
    s.countAfter (some count) record = some count := by
  rw [countAfter]
  split
  · rfl
  · rfl

/-- An open number of labels becomes known only where labels are listed. -/
theorem of_countAfter_eq_some {record : Record} {count : Nat}
    (h : s.countAfter none record = some count) :
    s.labelMode = .listed ∧ record.labels.length = count := by
  rw [countAfter] at h
  split at h
  · rename_i hmode
    exact ⟨hmode, Option.some.inj h⟩
  · cases h

theorem countAfter_listed (hmode : s.labelMode = .listed) (record : Record) :
    s.countAfter none record = some record.labels.length := by
  simp only [countAfter, hmode, Option.none_or]

end Settings

end SvmLight
