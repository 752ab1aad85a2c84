import SvmLight.Proofs.Features
import SvmLight.Proofs.Indicator
import SvmLight.Proofs.Labels
import SvmLight.Reader

/-!
# The format of a line

The tokens of a line are decoded first, and then its label field. A line makes a record where both
are what the settings ask for; of all that is wrong with another line one fault is reported, which
the line alone decides.

* `Settings.TakesField`, `Settings.FieldFault`, `Settings.HasLabels` — which label fields will do,
  what is reported about the others, and which labels they stand for.
* `Settings.Accepts`, `Settings.Reports`, `Settings.IsRecord` — the same for lines.
* `Settings.decode_format` — **the format of a line**, and what becomes of the number of labels.
-/

namespace SvmLight

namespace Settings

variable {s : Settings} {count : Option Nat} {field line : Text} {labels : List Value}
  {e : DecodeError}

/-! ### Label fields -/

/-- A label field that is what the settings ask for, where so many labels are known. -/
inductive TakesField (s : Settings) (count : Option Nat) (field : Text) : Prop where
  /-- labels are left out, and anything will do -/
  | omitted (appendLabel : s.appendLabel = false)
  /-- each piece is the index of a label -/
  | indicator {n : Nat} (appendLabel : s.appendLabel = true) (multilabel : s.multilabel = true)
      (numLabels : s.numLabels = some n)
      (indices : ∀ piece ∈ Labels.pieces field, Labels.IsLabelIndex s.indexBase n piece)
  /-- there are as many pieces as there have to be, and each is a number -/
  | listed (appendLabel : s.appendLabel = true) (multilabel : s.multilabel = false)
      (length_eq : ∀ expected, count = some expected → (Labels.pieces field).length = expected)
      (literals : ∀ piece ∈ Labels.pieces field, Double.IsLiteral piece)

/-- What is reported about a label field. -/
inductive FieldFault (s : Settings) (count : Option Nat) (field : Text) : DecodeError → Prop where
  /-- the leftmost piece that is no index of a label -/
  | indicator {n : Nat} {e : DecodeError} (appendLabel : s.appendLabel = true)
      (multilabel : s.multilabel = true) (numLabels : s.numLabels = some n)
      (fault : Labels.IndexFault s.indexBase n field e) : FieldFault s count field e
  /-- the number of pieces, whatever they are -/
  | labelCount {expected : Nat} (appendLabel : s.appendLabel = true)
      (multilabel : s.multilabel = false) (count_eq : count = some expected)
      (length_ne : (Labels.pieces field).length ≠ expected) :
      FieldFault s count field (.labelCountMismatch (Labels.pieces field).length expected)
  /-- the leftmost piece that is no number -/
  | listed {e : DecodeError} (appendLabel : s.appendLabel = true)
      (multilabel : s.multilabel = false)
      (length_eq : ∀ expected, count = some expected → (Labels.pieces field).length = expected)
      (fault : Labels.LabelFault field e) : FieldFault s count field e

/-- The labels that a label field stands for. -/
inductive HasLabels (s : Settings) (field : Text) : List Value → Prop where
  /-- they are left out -/
  | omitted (appendLabel : s.appendLabel = false) : HasLabels s field []
  /-- they are the indicator of the field -/
  | indicator {n : Nat} {labels : List Value} (appendLabel : s.appendLabel = true)
      (multilabel : s.multilabel = true) (numLabels : s.numLabels = some n)
      (isIndicator : Labels.IsIndicator s.indexBase n field labels) : HasLabels s field labels
  /-- each is what its piece is read as -/
  | listed {labels : List Value} (appendLabel : s.appendLabel = true)
      (multilabel : s.multilabel = false)
      (readsAs : List.Forall₂ Labels.ReadsAs (Labels.pieces field) labels) :
      HasLabels s field labels

theorem decodeLabels_omitted (h : s.appendLabel = false) : s.decodeLabels count field = .ok [] := by
  rw [decodeLabels, labelMode_eq_omitted_iff.2 h]

theorem decodeLabels_indicator {n : Nat} (happend : s.appendLabel = true)
    (hmulti : s.multilabel = true) (hn : s.numLabels = some n) :
    s.decodeLabels count field = Labels.indicator s.indexBase n field := by
  rw [decodeLabels, labelMode_eq_indicator_iff.2 ⟨happend, hmulti, hn⟩]

theorem decodeLabels_listed (happend : s.appendLabel = true) (hmulti : s.multilabel = false) :
    s.decodeLabels count field = .ofExcept (Labels.listed count field) := by
  rw [decodeLabels, labelMode_eq_listed_iff.2 ⟨happend, hmulti⟩]

/-- **A label field is decoded if it is what the settings ask for.** -/
theorem exists_decodeLabels_eq_ok_iff (hs : s.Fits) :
    (∃ labels, s.decodeLabels count field = .ok labels) ↔ s.TakesField count field := by
  constructor
  · intro h
    cases hmode : s.labelMode with
    | omitted => exact .omitted (labelMode_eq_omitted_iff.1 hmode)
    | indicator n =>
      obtain ⟨happend, hmulti, hn⟩ := labelMode_eq_indicator_iff.1 hmode
      rw [decodeLabels_indicator happend hmulti hn,
        Labels.exists_indicator_eq_ok_iff (hs.indicator hmode)] at h
      exact .indicator happend hmulti hn h
    | listed =>
      obtain ⟨happend, hmulti⟩ := labelMode_eq_listed_iff.1 hmode
      rw [decodeLabels_listed happend hmulti] at h
      obtain ⟨labels, hlabels⟩ := h
      obtain ⟨hlength, hlisted⟩ := Labels.listed_eq_ok_iff.1 (Outcome.eq_ok_of_ofExcept hlabels)
      exact .listed happend hmulti hlength (Labels.exists_listed_none_iff.1 ⟨labels, hlisted⟩)
  · intro h
    cases h with
    | omitted appendLabel => exact ⟨[], decodeLabels_omitted appendLabel⟩
    | indicator appendLabel multilabel numLabels indices =>
      rw [decodeLabels_indicator appendLabel multilabel numLabels,
        Labels.exists_indicator_eq_ok_iff (hs.labels multilabel _ numLabels)]
      exact indices
    | listed appendLabel multilabel length_eq literals =>
      obtain ⟨labels, hlisted⟩ := Labels.exists_listed_none_iff.2 literals
      refine ⟨labels, ?_⟩
      rw [decodeLabels_listed appendLabel multilabel,
        Labels.listed_eq_ok_iff.2 ⟨length_eq, hlisted⟩]
      rfl

/-- **The error of a label field is its fault.** -/
theorem decodeLabels_eq_error_iff (hs : s.Fits) :
    s.decodeLabels count field = .error e ↔ s.FieldFault count field e := by
  constructor
  · intro h
    cases hmode : s.labelMode with
    | omitted =>
      rw [decodeLabels_omitted (labelMode_eq_omitted_iff.1 hmode)] at h
      cases h
    | indicator n =>
      obtain ⟨happend, hmulti, hn⟩ := labelMode_eq_indicator_iff.1 hmode
      rw [decodeLabels_indicator happend hmulti hn,
        Labels.indicator_eq_error_iff (hs.indicator hmode)] at h
      exact .indicator happend hmulti hn h
    | listed =>
      obtain ⟨happend, hmulti⟩ := labelMode_eq_listed_iff.1 hmode
      rw [decodeLabels_listed happend hmulti] at h
      rcases Labels.listed_eq_error_iff.1 (Outcome.eq_error_of_ofExcept h) with
        ⟨expected, hcount, hlength, rfl⟩ | ⟨hlength, hfault⟩
      · exact .labelCount happend hmulti hcount hlength
      · exact .listed happend hmulti hlength hfault
  · intro h
    cases h with
    | indicator appendLabel multilabel numLabels fault =>
      rw [decodeLabels_indicator appendLabel multilabel numLabels,
        Labels.indicator_eq_error_iff (hs.labels multilabel _ numLabels)]
      exact fault
    | labelCount appendLabel multilabel count_eq length_ne =>
      rw [decodeLabels_listed appendLabel multilabel,
        Labels.listed_eq_error_iff.2 (.inl ⟨_, count_eq, length_ne, rfl⟩)]
      rfl
    | listed appendLabel multilabel length_eq fault =>
      rw [decodeLabels_listed appendLabel multilabel,
        Labels.listed_eq_error_iff.2 (.inr ⟨length_eq, fault⟩)]
      rfl

/-- What is decoded are the labels that the field stands for. -/
theorem hasLabels_of_decodeLabels (hs : s.Fits) (h : s.decodeLabels count field = .ok labels) :
    s.HasLabels field labels := by
  cases hmode : s.labelMode with
  | omitted =>
    have happend := labelMode_eq_omitted_iff.1 hmode
    rw [decodeLabels_omitted happend] at h
    cases h
    exact .omitted happend
  | indicator n =>
    obtain ⟨happend, hmulti, hn⟩ := labelMode_eq_indicator_iff.1 hmode
    rw [decodeLabels_indicator happend hmulti hn] at h
    exact .indicator happend hmulti hn (Labels.isIndicator_of_indicator (hs.indicator hmode) h)
  | listed =>
    obtain ⟨happend, hmulti⟩ := labelMode_eq_listed_iff.1 hmode
    rw [decodeLabels_listed happend hmulti] at h
    obtain ⟨-, hlisted⟩ := Labels.listed_eq_ok_iff.1 (Outcome.eq_ok_of_ofExcept h)
    exact .listed happend hmulti (Labels.forall₂_of_listed hlisted)

/-! ### Lines -/

/-- A line that makes a record, where so many labels are known. -/
structure Accepts (s : Settings) (count : Option Nat) (line : Text) : Prop where
  /-- each token behind the label field is a query or a feature -/
  serves : ∀ token ∈ (Line.fields line).2, Features.Serves s token
  /-- the label field is what the settings ask for -/
  takesField : s.TakesField count (Line.fields line).1

/-- What is reported about a line that makes none. -/
inductive Reports (s : Settings) (count : Option Nat) (line : Text) : DecodeError → Prop where
  /-- the first token that is no query and no feature, whatever the label field is -/
  | feature {e : DecodeError} (fault : Features.FirstFault s (Line.fields line).2 e) :
      Reports s count line e
  /-- if there is none, the fault of the label field -/
  | labels {e : DecodeError} (serves : ∀ token ∈ (Line.fields line).2, Features.Serves s token)
      (fault : s.FieldFault count (Line.fields line).1 e) : Reports s count line e

/-- The record that a line makes. -/
structure IsRecord (s : Settings) (line : Text) (record : Record) : Prop where
  /-- its features are the row of the tokens -/
  isRow : Features.IsRow s (Line.fields line).2 record.features
  /-- its labels are those of the label field -/
  hasLabels : s.HasLabels (Line.fields line).1 record.labels

variable {record : Record}

/-- A record is made of what is decoded of both parts. -/
theorem decode_eq_ok_iff :
    s.decode count line = .ok record ↔
      Features.decode s (Line.fields line).2 = .ok record.features ∧
        s.decodeLabels count (Line.fields line).1 = .ok record.labels := by
  rw [decode_eq]
  constructor
  · intro h
    obtain ⟨features, hfeatures, h⟩ := Outcome.bind_eq_ok h
    obtain ⟨labels, hlabels, h⟩ := Outcome.bind_eq_ok h
    cases h
    exact ⟨hfeatures, hlabels⟩
  · rintro ⟨hfeatures, hlabels⟩
    rw [hfeatures, Outcome.ok_bind, hlabels, Outcome.ok_bind]

theorem exists_decode_eq_ok_iff (hs : s.Fits) :
    (∃ record, s.decode count line = .ok record) ↔ s.Accepts count line := by
  constructor
  · rintro ⟨record, h⟩
    obtain ⟨hfeatures, hlabels⟩ := decode_eq_ok_iff.1 h
    exact ⟨(Features.of_decode_eq_ok hs.features hfeatures).2,
      (exists_decodeLabels_eq_ok_iff hs).1 ⟨_, hlabels⟩⟩
  · rintro ⟨serves, takesField⟩
    obtain ⟨features, hfeatures⟩ := Features.exists_decode_eq_ok hs.features serves
    obtain ⟨labels, hlabels⟩ := (exists_decodeLabels_eq_ok_iff hs).2 takesField
    exact ⟨⟨features, labels⟩, decode_eq_ok_iff.2 ⟨hfeatures, hlabels⟩⟩

theorem isRecord_of_decode (hs : s.Fits) (h : s.decode count line = .ok record) :
    s.IsRecord line record := by
  obtain ⟨hfeatures, hlabels⟩ := decode_eq_ok_iff.1 h
  exact ⟨(Features.of_decode_eq_ok hs.features hfeatures).1, hasLabels_of_decodeLabels hs hlabels⟩

/-- The features come first. -/
theorem decode_eq_error_iff (hs : s.Fits) :
    s.decode count line = .error e ↔ s.Reports count line e := by
  rw [decode_eq]
  constructor
  · intro h
    rcases Outcome.bind_eq_error h with hfeatures | ⟨features, hfeatures, h⟩
    · exact .feature ((Features.decode_eq_error_iff hs.features).1 hfeatures)
    · rcases Outcome.bind_eq_error h with hlabels | ⟨labels, -, h⟩
      · exact .labels (Features.of_decode_eq_ok hs.features hfeatures).2
          ((decodeLabels_eq_error_iff hs).1 hlabels)
      · cases h
  · intro h
    cases h with
    | feature fault => rw [fault.decode_eq hs.features, Outcome.error_bind]
    | labels serves fault =>
      obtain ⟨features, hfeatures⟩ := Features.exists_decode_eq_ok hs.features serves
      rw [hfeatures, Outcome.ok_bind, (decodeLabels_eq_error_iff hs).2 fault, Outcome.error_bind]

/-! ### The number of labels -/

/-- Where labels are listed, there are as many as pieces. -/
theorem HasLabels.length_eq (h : s.HasLabels field labels) (happend : s.appendLabel = true)
    (hmulti : s.multilabel = false) : labels.length = (Labels.pieces field).length := by
  cases h with
  | omitted appendLabel =>
    rw [happend] at appendLabel
    cases appendLabel
  | indicator _ multilabel _ _ =>
    rw [hmulti] at multilabel
    cases multilabel
  | listed _ _ readsAs => exact readsAs.length_eq.symm

/-- The number of labels that is known after a record: the one of this line, if labels are listed
and it was open. -/
theorem countAfter_of_decode (hs : s.Fits) (h : s.decode count line = .ok record) :
    s.countAfter count record =
      if s.appendLabel = true ∧ s.multilabel = false then
        count.or (some (Labels.pieces (Line.fields line).1).length)
      else count := by
  rw [countAfter]
  split
  · rename_i hmode
    obtain ⟨happend, hmulti⟩ := labelMode_eq_listed_iff.1 hmode
    rw [if_pos ⟨happend, hmulti⟩,
      (isRecord_of_decode hs h).hasLabels.length_eq happend hmulti]
  · rename_i hmode
    rw [if_neg fun hlisted => hmode (labelMode_eq_listed_iff.2 hlisted)]

/-- **The format of a line.** A line makes a record if and only if its tokens and its label field
are what the settings ask for. Else one fault is reported: of the tokens the first, and if there is
none, the one of the label field. Where labels are left out, their field is not looked at.

A reader whose next line this is gives that record or reports that fault. The number of labels that
it knows changes only with a record, only where labels are listed, and only if it was open. -/
theorem decode_format (hs : s.Fits) (count : Option Nat) (line : Text) :
    ((∃ record, s.decode count line = .ok record) ↔ s.Accepts count line) ∧
      (∀ e, s.decode count line = .error e ↔ s.Reports count line e) ∧
      s.decode count line ≠ .oversize ∧
      (∀ record, s.decode count line = .ok record → s.IsRecord line record) ∧
      (s.appendLabel = false → s.decode count line =
        (Features.decode s (Line.fields line).2 >>= fun features => .ok ⟨features, []⟩)) ∧
      ∀ {σ : Type} [LineSource σ] (r : Reader σ) (place : Place) (input : Peekable σ),
        r.settings = s → r.labelCount = count →
        r.input.pop = (.ok (some ⟨line, place⟩), input) →
        (∀ e, s.decode count line = .error e →
          r.readPlaced = (.error (.atLine place (.decoding e)), { r with input })) ∧
        ∀ record, s.decode count line = .ok record →
          r.readPlaced = (.ok (record, place),
            { r with
              input
              labelCount :=
                if s.appendLabel = true ∧ s.multilabel = false then
                  count.or (some (Labels.pieces (Line.fields line).1).length)
                else count }) := by
  refine ⟨exists_decode_eq_ok_iff hs, fun e => decode_eq_error_iff hs, decode_ne_oversize hs _ _,
    fun record => isRecord_of_decode hs, ?_, ?_⟩
  · intro happend
    rw [decode_eq, decodeLabels_omitted happend]
    rfl
  · rintro σ _ r place input rfl rfl hpop
    rw [Reader.readPlaced, hpop]
    dsimp only
    refine ⟨?_, ?_⟩
    · intro e he
      rw [he]
    · intro record hrecord
      rw [hrecord, ← countAfter_of_decode hs hrecord]

/-- Two features, and labels are listed. Of a bad token, a wrong number of labels and a bad label
the first is reported, and then the second, and then the third. -/
theorem decode_format_ranked :
    let s := plain 2
    s.Fits ∧
      s.Reports (some 3) "1,x 0:inf 2:inf".toList (.indexOutOfRange .feature 2 2) ∧
      s.Reports (some 3) "1,x 0:inf".toList (.labelCountMismatch 2 3) ∧
      s.Reports none "1,x 0:inf".toList (.malformedLabel "x".toList) ∧
      s.Accepts (some 2) "\t1,nan 1:inf # x".toList := by
  intro s
  have hs : s.Fits := fits_plain (by decide)
  obtain ⟨-, hfeature, -⟩ := decode_format hs (some 3) "1,x 0:inf 2:inf".toList
  obtain ⟨-, hcount, -⟩ := decode_format hs (some 3) "1,x 0:inf".toList
  obtain ⟨-, hlabel, -⟩ := decode_format hs none "1,x 0:inf".toList
  obtain ⟨haccepts, -⟩ := decode_format hs (some 2) "\t1,nan 1:inf # x".toList
  exact ⟨hs, (hfeature _).1 rfl, (hcount _).1 rfl, (hlabel _).1 rfl, haccepts.1 ⟨_, rfl⟩⟩

end Settings

end SvmLight
