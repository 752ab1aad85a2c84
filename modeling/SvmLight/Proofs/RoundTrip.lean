import SvmLight.Proofs.Features
import SvmLight.Proofs.Layout
import SvmLight.Proofs.Value

/-!
# Written lines read back

A record is written as a line of the format: the labels, joined by commas, and then pieces, with a
space in front of each. A piece is a feature, or a token that tells the query. Features may come in
any order, and those that are positive zero may be left out. Decoding the line gives the record.

* `Line.write` — the line of some labels and pieces.
* `Piece.Lists` — the pieces that a row of features may be written with.
* `Line.tokens_append` — tokens with a space in front of each are cut apart again.
* `Features.decode_pieces`, `Labels.exists_listed_join` — the features and the labels of a line.
* `Settings.decode_write` — decoding undoes writing.
-/

namespace SvmLight

/-! ### Writing -/

/-- What stands behind the labels of a line. -/
inductive Piece where
  /-- a value at a position, which is counted from zero -/
  | feature (position : Nat) (value : Double)
  /-- a token that tells the query -/
  | query (token : Text)
deriving DecidableEq

namespace Piece

/-- The text of a piece. -/
def text (base : IndexBase) : Piece → Text
  | .feature position value =>
    Numeral.natural (base.written position) ++ Features.mark :: (Value.float value).text
  | .query token => token

/-- What a piece places in a row. -/
def entry? : Piece → Option (Nat × Double)
  | .feature position value => some (position, value)
  | .query _ => none

end Piece

/-- The line of some labels and pieces. -/
def Line.write (base : IndexBase) (labels : List Value) (pieces : List Piece) : Text :=
  Text.join ',' (labels.map Value.text) ++ pieces.flatMap fun piece => ' ' :: piece.text base

example : Line.write .one [.int (-3), .float .nan]
    [.feature 2 .nan, .query ['q', 'i', 'd'], .feature 0 (.signed true .infinity)] =
    "-3,NaN 3:NaN qid 1:-inf".toList := by decide

/-- A text that is one token wherever it stands behind the label field of a line. -/
structure Line.IsToken (t : Text) : Prop where
  /-- it is not empty -/
  ne_nil : t ≠ []
  /-- it is not cut, and no comment begins in it -/
  uncut : ∀ c ∈ t, isSeparator c = false ∧ c ≠ commentMark
  /-- nothing is taken off its end -/
  last : ∀ c ∈ t.getLast?, Text.isBlank c = false

/-- A token that tells the query. -/
structure IsQueryToken (token : Text) : Prop extends Line.IsToken token where
  /-- this is what it begins with -/
  qid : ['q', 'i', 'd'] <+: token

/-- The pieces that a row of features may be written with. -/
structure Piece.Lists (pieces : List Piece) (features : List Double) : Prop where
  /-- the values stand at their positions -/
  value : ∀ {position value}, .feature position value ∈ pieces → features[position]? = some value
  /-- only positive zeros are left out -/
  listed : ∀ {position value}, features[position]? = some value → value ≠ .zero →
    .feature position value ∈ pieces
  /-- the other tokens tell the query -/
  query : ∀ {token}, .query token ∈ pieces → IsQueryToken token

/-! ### Tokens -/

namespace Text

/-- A text is joined to others with the separator in front of each of them. -/
theorem join_cons (c : Char) (t : Text) (ts : List Text) :
    join c (t :: ts) = t ++ ts.flatMap (c :: ·) := by
  induction ts generalizing t with
  | nil => rw [join, List.intercalate_singleton, List.flatMap_nil, List.append_nil]
  | cons t' ts ih =>
    rw [join, List.intercalate_cons_cons, ← join, ih, List.append_assoc, List.flatMap_cons]
    rfl

/-- What is joined, and what joins it. -/
theorem eq_or_mem_of_mem_join {c d : Char} {ts : List Text} (h : d ∈ join c ts) :
    d = c ∨ ∃ t ∈ ts, d ∈ t := by
  rw [join] at h
  induction ts with
  | nil => cases h
  | cons t ts ih =>
    cases ts with
    | nil =>
      rw [List.intercalate_singleton] at h
      exact .inr ⟨t, List.mem_cons_self, h⟩
    | cons t' ts =>
      rw [List.intercalate_cons_cons, List.append_assoc, List.mem_append, List.mem_append] at h
      rcases h with h | h | h
      · exact .inr ⟨t, List.mem_cons_self, h⟩
      · exact .inl (List.mem_singleton.1 h)
      · rcases ih h with rfl | ⟨t'', hmem, hd⟩
        · exact .inl rfl
        · exact .inr ⟨t'', List.mem_cons_of_mem _ hmem, hd⟩

end Text

namespace Line

/-- Separators are blanks. -/
theorem IsToken.of_not_blank {t : Text} (hne : t ≠ [])
    (h : ∀ c ∈ t, Text.isBlank c = false ∧ c ≠ commentMark) : IsToken t where
  ne_nil := hne
  uncut := by
    intro c hc
    obtain ⟨hblank, hmark⟩ := h c hc
    refine ⟨?_, hmark⟩
    rw [← Bool.not_eq_true]
    intro hseparator
    rw [isBlank_of_isSeparator hseparator] at hblank
    cases hblank
  last := by
    intro c hc
    exact (h c (List.mem_of_getLast? hc)).1

/-- **The tokens of a written line are what it was written from.** -/
theorem tokens_append {field : Text} {ts : List Text} (hfield : IsToken field)
    (hfirst : ∀ c ∈ field.head?, Text.isBlank c = false) (h : ∀ t ∈ ts, IsToken t) :
    tokens (field ++ ts.flatMap (' ' :: ·)) = field :: ts := by
  have hall : ∀ t ∈ field :: ts, IsToken t := List.forall_mem_cons.2 ⟨hfield, h⟩
  have htokens : AreTokens (field :: ts) := by
    refine ⟨fun t ht => ⟨(hall t ht).ne_nil, fun c hc => ((hall t ht).uncut c hc).1⟩, ?_, ?_, ?_⟩
    · intro t ht hmark
      exact ((hall t ht).uncut _ hmark).2 rfl
    · rintro t ⟨⟩
      exact hfirst
    · intro t ht
      exact (hall t (List.mem_of_getLast? ht)).last
  rw [← Text.join_cons]
  exact (laidOut_join _).tokens_eq htokens

end Line

/-! ### Characters of a line -/

/-- No symbol is a blank or starts a comment. -/
theorem Value.IsSymbol.uncut {c : Char} (h : IsSymbol c) :
    Text.isBlank c = false ∧ c ≠ Line.commentMark :=
  ⟨h.not_blank, h.ne (by decide)⟩

/-- Each piece is one token. -/
theorem Piece.isToken_text (base : IndexBase) {piece : Piece}
    (h : ∀ token, piece = .query token → IsQueryToken token) :
    Line.IsToken (piece.text base) := by
  cases piece with
  | query token => exact (h token rfl).toIsToken
  | feature position value =>
    apply Line.IsToken.of_not_blank
    · apply List.append_ne_nil_of_left_ne_nil
      exact Numeral.natural_ne_nil _
    · intro c hc
      rcases List.mem_append.1 hc with hindex | hvalue
      · exact (Value.isSymbol_of_mem_natural hindex).uncut
      · rcases List.mem_cons.1 hvalue with rfl | hvalue
        · decide
        · exact (Value.isSymbol_of_mem_text hvalue).uncut

/-! ### Features -/

/-- A written index is decoded to its position. -/
theorem IndexBase.decode_written {base : IndexBase} {kind : IndexKind} {bound position : Nat}
    (hbound : bound < 2 ^ 60) (h : position < bound) (token : Text) :
    base.decode kind bound token (Numeral.natural (base.written position)) = .ok position := by
  have hlimit : position < limit := by
    have hbig : limit = 2 ^ 64 - 1 := rfl
    omega
  rw [decode_natural hlimit, if_pos h]

namespace Features

variable {s : Settings}

theorem breakAt_feature (base : IndexBase) (position : Nat) (value : Double) :
    ((Piece.feature position value).text base).breakAt mark =
      (Numeral.natural (base.written position), some value.text) :=
  (parts_indexed _ _).breakAt_eq

/-- A written feature is decoded to its entry. -/
theorem entry_feature (hs : s.numFeatures < 2 ^ 60) {position : Nat}
    (h : position < s.numFeatures) (value : Double) :
    entry s ((Piece.feature position value).text s.indexBase) = .ok (position, value) := by
  rw [entry, breakAt_feature]
  dsimp only
  rw [IndexBase.decode_written hs h]
  dsimp only
  rw [Option.bind_some, Double.ofText?_text]

theorem isQuery_feature (base : IndexBase) (position : Nat) (value : Double) :
    isQuery ((Piece.feature position value).text base) = false :=
  isQuery_indexed _ _

theorem isQuery_query {token : Text} (h : IsQueryToken token) : isQuery token = true := by
  obtain ⟨rest, rfl⟩ := h.qid
  rfl

/-- All features are decoded, and all other tokens are skipped. -/
theorem mapM_entry_text (hs : s.numFeatures < 2 ^ 60) {pieces : List Piece}
    (hfeature : ∀ {position value}, .feature position value ∈ pieces → position < s.numFeatures)
    (hquery : ∀ {token}, .query token ∈ pieces → IsQueryToken token) :
    ((pieces.map (·.text s.indexBase)).filter (!isQuery ·)).mapM (entry s) =
      .ok (pieces.filterMap Piece.entry?) := by
  induction pieces with
  | nil => rfl
  | cons piece pieces ih =>
    have hrest := ih (fun h => hfeature (List.mem_cons_of_mem _ h))
      fun h => hquery (List.mem_cons_of_mem _ h)
    rw [List.map_cons]
    cases piece with
    | feature position value =>
      have hbound := hfeature List.mem_cons_self
      rw [List.filter_cons_of_pos (by rw [isQuery_feature]; rfl), List.mapM_cons,
        entry_feature hs hbound, hrest]
      rfl
    | query token =>
      have hskip : isQuery ((Piece.query token).text s.indexBase) = true :=
        isQuery_query (hquery List.mem_cons_self)
      rw [List.filter_cons_of_neg (by simp [hskip]), hrest]
      rfl

/-- **The pieces of a row are decoded to the row.** -/
theorem decode_pieces (hs : s.numFeatures < 2 ^ 60) {pieces : List Piece} {features : List Double}
    (hlength : features.length = s.numFeatures) (h : Piece.Lists pieces features) :
    decode s (pieces.map (·.text s.indexBase)) = .ok features := by
  have hentries := mapM_entry_text hs (fun {position value} hmem => by
    rw [← hlength]
    exact (List.getElem?_eq_some_iff.1 (h.value hmem)).1) h.query
  have hvalue : ∀ entry ∈ pieces.filterMap Piece.entry?, features[entry.1]? = some entry.2 := by
    intro entry hmem
    obtain ⟨piece, hpiece, hentry⟩ := List.mem_filterMap.1 hmem
    cases piece with
    | feature position value =>
      cases hentry
      exact h.value hpiece
    | query token => cases hentry
  have hlisted : ∀ i x, features[i]? = some x → x ≠ .zero →
      (i, x) ∈ pieces.filterMap Piece.entry? := by
    intro i x hx hzero
    exact List.mem_filterMap.2 ⟨.feature i x, h.listed hx hzero, rfl⟩
  rw [decode, Settings.reserve_features hs, Outcome.ok_bind, hentries, ← hlength]
  exact congrArg Outcome.ok (scatter_eq hvalue hlisted)

end Features

/-! ### Labels -/

namespace Labels

/-- The pieces of a written field are the texts of the labels. -/
theorem pieces_join {labels : List Value} (hne : labels ≠ []) :
    pieces (Text.join ',' (labels.map Value.text)) = labels.map Value.text := by
  apply List.splitOn_intercalate
  · intro t ht hcomma
    obtain ⟨v, -, rfl⟩ := List.mem_map.1 ht
    exact absurd (Value.isSymbol_of_mem_text hcomma) (by decide)
  · simpa using hne

/-- A written field has no blank and no comment mark in it. -/
theorem uncut_of_mem_join {labels : List Value} {c : Char}
    (h : c ∈ Text.join ',' (labels.map Value.text)) :
    Text.isBlank c = false ∧ c ≠ Line.commentMark := by
  rcases Text.eq_or_mem_of_mem_join h with rfl | ⟨t, ht, hc⟩
  · decide
  · obtain ⟨v, -, rfl⟩ := List.mem_map.1 ht
    exact (Value.isSymbol_of_mem_text hc).uncut

theorem join_ne_nil {labels : List Value} (hne : labels ≠ []) :
    Text.join ',' (labels.map Value.text) ≠ [] := by
  intro hnil
  have hpieces := pieces_join hne
  rw [hnil] at hpieces
  have hmem : [] ∈ labels.map Value.text := by
    rw [← hpieces]
    exact List.mem_cons_self
  obtain ⟨v, -, hv⟩ := List.mem_map.1 hmem
  exact v.text_ne_nil hv

theorem exists_mapM_value (labels : List Value) :
    ∃ labels', (labels.map Value.text).mapM value = .ok labels' ∧
      List.Forall₂ Value.ReadsBack labels labels' := by
  induction labels with
  | nil => exact ⟨[], rfl, .nil⟩
  | cons v labels ih =>
    obtain ⟨v', hv, hback⟩ := exists_value_text v
    obtain ⟨labels', hlabels, hbacks⟩ := ih
    refine ⟨v' :: labels', ?_, .cons hback hbacks⟩
    rw [List.map_cons, List.mapM_cons, hv, hlabels]
    rfl

/-- **The labels of a written field**, whether their number is known or not. -/
theorem exists_listed_join {labels : List Value} (hne : labels ≠ []) {count : Option Nat}
    (hcount : ∀ k, count = some k → k = labels.length) :
    ∃ labels', listed count (Text.join ',' (labels.map Value.text)) = .ok labels' ∧
      List.Forall₂ Value.ReadsBack labels labels' := by
  obtain ⟨labels', hlabels, hback⟩ := exists_mapM_value labels
  refine ⟨labels', ?_, hback⟩
  have hnone : listed none (Text.join ',' (labels.map Value.text)) = .ok labels' := by
    rw [listed, pieces_join hne]
    exact hlabels
  cases count with
  | none => exact hnone
  | some k =>
    rw [listed_some, pieces_join hne, List.length_map, if_pos (hcount k rfl).symm]
    exact hnone

end Labels

/-! ### The whole line -/

namespace Settings

/-- A written line has the label field and the pieces that it was written from. -/
theorem fields_write {base : IndexBase} {labels : List Value} {pieces : List Piece}
    (hlabels : labels ≠ []) (hquery : ∀ {token}, .query token ∈ pieces → IsQueryToken token) :
    Line.fields (Line.write base labels pieces) =
      (Text.join ',' (labels.map Value.text), pieces.map (·.text base)) := by
  have huncut : ∀ c ∈ Text.join ',' (labels.map Value.text),
      Text.isBlank c = false ∧ c ≠ Line.commentMark := fun c hc => Labels.uncut_of_mem_join hc
  have hfield := Line.IsToken.of_not_blank (Labels.join_ne_nil hlabels) huncut
  have hfirst : ∀ c ∈ (Text.join ',' (labels.map Value.text)).head?, Text.isBlank c = false :=
    fun c hc => (huncut c (List.mem_of_head? hc)).1
  have htokens : ∀ t ∈ pieces.map (·.text base), Line.IsToken t := by
    intro t ht
    obtain ⟨piece, hpiece, rfl⟩ := List.mem_map.1 ht
    apply Piece.isToken_text
    rintro token rfl
    exact hquery hpiece
  have hline : Line.write base labels pieces =
      Text.join ',' (labels.map Value.text) ++ (pieces.map (·.text base)).flatMap (' ' :: ·) := by
    rw [List.flatMap_map]
    rfl
  rw [hline, Line.fields, Line.tokens_append hfield hfirst htokens]

/-- **Decoding undoes writing.** A record of which every feature that is not positive zero is
listed, in any order and with tokens between them that tell the query, is read back from its line:
the same features and, one for one, what its labels are read back as. -/
theorem decode_write {s : Settings} {count : Option Nat} {record : Record} {pieces : List Piece}
    (happend : s.appendLabel = true) (hmulti : s.multilabel = false)
    (hs : s.numFeatures < 2 ^ 60) (hfeatures : record.features.length = s.numFeatures)
    (hlabels : record.labels ≠ []) (hcount : ∀ k, count = some k → k = record.labels.length)
    (hpieces : Piece.Lists pieces record.features) :
    ∃ labels, s.decode count (Line.write s.indexBase record.labels pieces) =
        .ok ⟨record.features, labels⟩ ∧
      List.Forall₂ Value.ReadsBack record.labels labels := by
  obtain ⟨labels, hlisted, hback⟩ := Labels.exists_listed_join hlabels hcount
  refine ⟨labels, ?_, hback⟩
  have hmode : s.labelMode = .listed := by
    rw [labelMode, happend, hmulti]
    rfl
  rw [decode_eq, fields_write hlabels hpieces.query]
  dsimp only
  rw [Features.decode_pieces hs hfeatures hpieces, Outcome.ok_bind, decodeLabels, hmode]
  dsimp only
  rw [hlisted]
  rfl

/-- Indices count from one, the second feature is left out, and the third comes first. -/
theorem decode_write_unordered :
    let s : Settings := { plain 3 with indexBase := .one }
    let record : Record := ⟨[.one, .zero, .nan], [.int (-3), .float .one, .float .nan]⟩
    let pieces : List Piece :=
      [.feature 2 .nan, .query ['q', 'i', 'd', ':', '7'], .feature 0 .one]
    s.appendLabel = true ∧ s.multilabel = false ∧ s.numFeatures < 2 ^ 60 ∧
      record.features.length = s.numFeatures ∧ record.labels ≠ [] ∧
      Piece.Lists pieces record.features ∧
      ∃ labels, s.decode (some 3) (Line.write s.indexBase record.labels pieces) =
          .ok ⟨record.features, labels⟩ ∧
        List.Forall₂ Value.ReadsBack record.labels labels := by
  intro s record pieces
  have hs : s.numFeatures < 2 ^ 60 := by decide
  have hlabels : record.labels ≠ [] := by decide
  have hpieces : Piece.Lists pieces record.features :=
    { value := by
        intro position value hmem
        simp only [pieces, List.mem_cons, Piece.feature.injEq, reduceCtorEq, List.not_mem_nil,
          or_false, false_or] at hmem
        rcases hmem with ⟨rfl, rfl⟩ | ⟨rfl, rfl⟩
        · rfl
        · rfl
      listed := by
        intro position value hvalue hne
        rcases position with _ | _ | _ | position
        · cases hvalue
          decide
        · cases hvalue
          exact absurd rfl hne
        · cases hvalue
          decide
        · cases hvalue
      query := by
        intro token hmem
        simp only [pieces, List.mem_cons, Piece.query.injEq, reduceCtorEq, List.not_mem_nil,
          or_false, false_or] at hmem
        subst hmem
        exact
          { ne_nil := by simp
            uncut := by simp [Line.isSeparator, Line.commentMark]
            last := by
              intro c hc
              cases hc
              decide
            qid := by decide } }
  exact ⟨rfl, rfl, hs, rfl, hlabels, hpieces,
    decode_write rfl rfl hs rfl hlabels (fun k hk => (Option.some.inj hk).symm) hpieces⟩

end Settings

end SvmLight
