import SvmLight.Proofs.Decode
import SvmLight.Proofs.Numeral

/-!
# Valid options

Which options make settings up, and which settings these are, said without reading them.

* `Options.ofSets`, `Options.LastSet` — options that are set one after another, of which the last
  one with a name counts.
* `Options.Count`, `Options.Flag` — what an option says as a count or as a truth value.
* `Settings.DescribedBy` — the settings that options describe; `Settings.Valid` — there are any.
* `Settings.ofOptions_congr` — only the texts of six options matter; `ofOptions_congr_of_none` and
  `ofOptions_congr_of_numFeatures` — and not always all of them.
* `Settings.ofOptions_eq_ok_iff`, `Settings.exists_ofOptions_iff` — what is made of options, and
  when.
* `Settings.ofOptions_ofSets` — **all of this**, of options that are set one after another.
-/

namespace SvmLight

/-! ### Texts -/

/-- The text is a whole number of 64 bits, with blanks around it or none. -/
structure Text.HoldsInteger (t : Text) (z : Int) : Prop where
  /-- an optional sign and digits -/
  isInteger : Numeral.IsInteger t.trim z
  /-- not too small -/
  low : -2 ^ 63 ≤ z
  /-- not too large -/
  high : z < 2 ^ 63

/-- The word for a truth value. -/
def Text.ofBool : Bool → Text
  | true => ['t', 'r', 'u', 'e']
  | false => ['f', 'a', 'l', 's', 'e']

/-- The text is the word for a truth value, in letters of either case, with blanks around it or
none. -/
def Text.HoldsBool (t : Text) (b : Bool) : Prop := t.trim.lowerAscii = Text.ofBool b

theorem Text.HoldsInteger.eq {t : Text} {z z' : Int} (h : t.HoldsInteger z)
    (h' : t.HoldsInteger z') : z = z' := h.isInteger.eq h'.isInteger

theorem Text.holdsInteger_of_int64? {t : Text} {n : Int64} (h : Numeral.int64? t.trim = some n) :
    t.HoldsInteger n.toInt :=
  ⟨Numeral.int64?_eq_some_iff.1 h, n.minValue_le_toInt, n.toInt_lt⟩

theorem Text.not_holdsInteger_of_int64? {t : Text} (h : Numeral.int64? t.trim = none) (z : Int) :
    ¬ t.HoldsInteger z := by
  intro hz
  have hlow := hz.low
  have hhigh := hz.high
  rcases Numeral.int64?_eq_none_iff.1 h z hz.isInteger with hlt | hge
  · omega
  · omega

namespace Options

variable {o : Options} {key : String}

/-! ### Setting options -/

/-- The options after these have been set, one after another. -/
def ofSets (sets : List (String × Text)) : Options :=
  sets.foldl (fun o entry => o.set entry.1 entry.2) empty

/-- The option has been set to this text, and not been set again. -/
def LastSet (sets : List (String × Text)) (key : String) (text : Text) : Prop :=
  ∃ earlier later, sets = earlier ++ (key, text) :: later ∧ ∀ entry ∈ later, entry.1 ≠ key

/-- The entry that is set last stands in front. -/
theorem entries_foldl_set (sets : List (String × Text)) (o : Options) :
    (sets.foldl (fun o entry => o.set entry.1 entry.2) o).entries = sets.reverse ++ o.entries := by
  induction sets generalizing o with
  | nil => rfl
  | cons entry sets ih =>
    rw [List.foldl_cons, ih, List.reverse_cons, List.append_assoc]
    rfl

/-- **The last text counts.** -/
theorem get?_ofSets_eq_some_iff {sets : List (String × Text)} {text : Text} :
    (ofSets sets).get? key = some text ↔ LastSet sets key text := by
  rw [get?, ofSets, entries_foldl_set, empty, List.append_nil, List.lookup_eq_some_iff]
  constructor
  · rintro ⟨later, earlier, hsets, hlater⟩
    refine ⟨earlier.reverse, later.reverse, ?_, ?_⟩
    · rw [← List.reverse_reverse sets, hsets]
      simp
    · intro entry hmem heq
      have hne := hlater entry (List.mem_reverse.1 hmem)
      simp [heq] at hne
  · rintro ⟨earlier, later, rfl, hlater⟩
    refine ⟨later.reverse, earlier.reverse, by simp, ?_⟩
    intro entry hmem
    have hne := hlater entry (List.mem_reverse.1 hmem)
    simpa using fun heq => hne heq.symm

/-- Under this name the same text has been set last, or none. -/
def Agree (sets sets' : List (String × Text)) (key : String) : Prop :=
  ∀ text, LastSet sets key text ↔ LastSet sets' key text

theorem agree_iff {sets sets' : List (String × Text)} :
    Agree sets sets' key ↔ (ofSets sets).get? key = (ofSets sets').get? key := by
  simp only [Agree, ← get?_ofSets_eq_some_iff]
  exact Option.ext_iff.symm

/-! ### What an option says -/

/-- The option is set to a whole number. -/
def Holds (o : Options) (key : String) (z : Int) : Prop :=
  ∃ text, o.get? key = some text ∧ text.HoldsInteger z

/-- What an option says as a count; a negative number says as little as none. -/
inductive Count (o : Options) (key : String) : Option Nat → Prop where
  /-- it is not set -/
  | unset (get : o.get? key = none) : Count o key none
  /-- it is set to a negative number -/
  | negative {z : Int} (holds : o.Holds key z) (lt : z < 0) : Count o key none
  /-- it is set to a number that is not negative -/
  | number {n : Nat} (holds : o.Holds key n) : Count o key (some n)

/-- What an option says as a truth value, if there is another one to go by. -/
inductive Flag (o : Options) (key : String) (default : Bool) : Bool → Prop where
  /-- it is not set -/
  | unset (get : o.get? key = none) : Flag o key default default
  /-- it is set to a truth value -/
  | word {text : Text} {b : Bool} (get : o.get? key = some text) (holds : text.HoldsBool b) :
      Flag o key default b

theorem Holds.eq {z z' : Int} (h : o.Holds key z) (h' : o.Holds key z') : z = z' := by
  obtain ⟨text, hget, hz⟩ := h
  obtain ⟨text', hget', hz'⟩ := h'
  obtain rfl := Option.some.inj (hget.symm.trans hget')
  exact hz.eq hz'

theorem Holds.get_ne_none {z : Int} (h : o.Holds key z) : o.get? key ≠ none := by
  obtain ⟨text, hget, -⟩ := h
  rw [hget]
  exact Option.some_ne_none text

theorem not_holds_of_other {text : Text} (get : o.get? key = some text)
    (no : ∀ z, ¬ text.HoldsInteger z) (z : Int) : ¬ o.Holds key z := by
  rintro ⟨text', hget, hz⟩
  obtain rfl := Option.some.inj (get.symm.trans hget)
  exact no z hz

/-- What reading an option as a whole number comes to. -/
inductive ReadsInt (o : Options) (key : String) : Except SettingsError (Option Int64) → Prop where
  /-- it is not set -/
  | unset (get : o.get? key = none) : ReadsInt o key (.ok none)
  /-- it is set to a whole number -/
  | number {n : Int64} (holds : o.Holds key n.toInt) : ReadsInt o key (.ok (some n))
  /-- it is set to something else -/
  | other {text : Text} (get : o.get? key = some text) (no : ∀ z, ¬ text.HoldsInteger z) :
      ReadsInt o key (.error (.notAnInteger key text))

theorem readsInt (o : Options) (key : String) : o.ReadsInt key (o.int? key) := by
  unfold int?
  split
  · rename_i hget
    exact .unset hget
  · rename_i text hget
    split
    · rename_i n hread
      exact .number ⟨text, hget, Text.holdsInteger_of_int64? hread⟩
    · rename_i hread
      exact .other hget (Text.not_holdsInteger_of_int64? hread)

theorem bool_eq_ok_iff {default b : Bool} : o.bool key default = .ok b ↔ o.Flag key default b := by
  constructor
  · intro h
    unfold bool at h
    split at h
    · rename_i hget
      cases h
      exact .unset hget
    · rename_i text hget
      dsimp only at h
      split at h
      · rename_i hword
        cases h
        exact .word hget hword
      · split at h
        · rename_i hword
          cases h
          exact .word hget hword
        · cases h
  · intro h
    rw [bool]
    cases h with
    | unset get => rw [get]
    | word get holds =>
      rw [get]
      cases b with
      | true => exact if_pos holds
      | false =>
        refine (if_neg ?_).trans (if_pos holds)
        rw [holds]
        decide

theorem Flag.eq {default b b' : Bool} (h : o.Flag key default b) (h' : o.Flag key default b') :
    b = b' :=
  Except.ok.inj ((bool_eq_ok_iff.2 h).symm.trans (bool_eq_ok_iff.2 h'))

/-- An option says a truth value, unless it is set to something else. -/
theorem exists_flag_iff {default : Bool} :
    (∃ b, o.Flag key default b) ↔
      ∀ text, o.get? key = some text → ∃ b, text.HoldsBool b := by
  constructor
  · rintro ⟨b, h⟩ text hget
    cases h with
    | unset get => exact absurd (hget.symm.trans get) (Option.some_ne_none _)
    | word get holds =>
      obtain rfl := Option.some.inj (hget.symm.trans get)
      exact ⟨b, holds⟩
  · intro h
    cases hget : o.get? key with
    | none => exact ⟨default, .unset hget⟩
    | some text =>
      obtain ⟨b, hb⟩ := h text hget
      exact ⟨b, .word hget hb⟩

/-- An option says a count, or none, unless it is set to something else than a number. -/
theorem exists_count_iff :
    (∃ n?, o.Count key n?) ↔ ∀ text, o.get? key = some text → ∃ z, text.HoldsInteger z := by
  have hholds : ∀ {text z}, o.Holds key z → o.get? key = some text → text.HoldsInteger z := by
    rintro text z ⟨text', hget, hz⟩ hget'
    obtain rfl := Option.some.inj (hget.symm.trans hget')
    exact hz
  constructor
  · rintro ⟨n?, h⟩ text hget
    cases h with
    | unset get => exact absurd (hget.symm.trans get) (Option.some_ne_none _)
    | negative holds lt => exact ⟨_, hholds holds hget⟩
    | number holds => exact ⟨_, hholds holds hget⟩
  · intro h
    cases hget : o.get? key with
    | none => exact ⟨none, .unset hget⟩
    | some text =>
      obtain ⟨z, hz⟩ := h text hget
      rcases Int.lt_or_le z 0 with hlt | hle
      · exact ⟨none, .negative ⟨text, hget, hz⟩ hlt⟩
      · obtain ⟨n, rfl⟩ := Int.eq_ofNat_of_zero_le hle
        exact ⟨some n, .number ⟨text, hget, hz⟩⟩

/-- A count that is said is one of 63 bits. -/
theorem Count.lt {n : Nat} (h : o.Count key (some n)) : n < 2 ^ 63 := by
  cases h with
  | number holds =>
    obtain ⟨text, -, hz⟩ := holds
    have := hz.high
    omega

end Options

namespace Settings

variable {o o' : Options} {s : Settings} {key : String}

/-! ### Counts -/

theorem count?_eq_some_iff {n : Int64} {m : Nat} : count? (some n) = some m ↔ n.toInt = m := by
  rw [count?]
  by_cases hn : 0 ≤ n.toInt
  · rw [Option.filter_some_pos (by simpa using hn), Option.map_some, Option.some_inj]
    omega
  · rw [Option.filter_some_neg (by simpa using hn), Option.map_none]
    refine iff_of_false (by simp) ?_
    omega

theorem count?_eq_none_iff {n : Int64} : count? (some n) = none ↔ n.toInt < 0 := by
  rw [Option.eq_none_iff_forall_ne_some]
  simp only [ne_eq, count?_eq_some_iff]
  constructor
  · intro h
    have := h n.toInt.toNat
    omega
  · intro h m hm
    omega

/-- An option as a count. -/
def countOf (o : Options) (key : String) : Except SettingsError (Option Nat) :=
  count? <$> o.int? key

/-- **A count is read where an option says one**, and where it says none. -/
theorem countOf_eq_ok_iff {n? : Option Nat} : countOf o key = .ok n? ↔ o.Count key n? := by
  have hreads := o.readsInt key
  rw [countOf]
  generalize o.int? key = read at hreads
  constructor
  · intro h
    cases hreads with
    | unset get =>
      cases h
      exact .unset get
    | @number z holds =>
      cases h
      cases hcount : count? (some z) with
      | none => exact .negative holds (count?_eq_none_iff.1 hcount)
      | some m => exact .number (count?_eq_some_iff.1 hcount ▸ holds)
    | other get no => cases h
  · intro h
    cases hreads with
    | unset get =>
      cases h with
      | unset _ => rfl
      | negative holds _ => exact absurd get holds.get_ne_none
      | number holds => exact absurd get holds.get_ne_none
    | @number z holds =>
      refine congrArg Except.ok ?_
      cases h with
      | unset get => exact absurd get holds.get_ne_none
      | negative holds' lt => exact count?_eq_none_iff.2 (holds.eq holds' ▸ lt)
      | number holds' => exact count?_eq_some_iff.2 (holds.eq holds')
    | other get no =>
      cases h with
      | unset get' => exact absurd (get.symm.trans get') (Option.some_ne_none _)
      | negative holds _ => exact absurd holds (Options.not_holds_of_other get no _)
      | number holds => exact absurd holds (Options.not_holds_of_other get no _)

/-- An option says one count at most. -/
theorem count_eq {n? m? : Option Nat} (h : o.Count key n?) (h' : o.Count key m?) : n? = m? :=
  Except.ok.inj ((countOf_eq_ok_iff.2 h).symm.trans (countOf_eq_ok_iff.2 h'))

theorem int?_of_other {text : Text} (get : o.get? key = some text)
    (no : ∀ z, ¬ text.HoldsInteger z) : o.int? key = .error (.notAnInteger key text) := by
  have hreads := o.readsInt key
  generalize o.int? key = read at hreads
  cases hreads with
  | unset get' => exact absurd (get.symm.trans get') (Option.some_ne_none _)
  | number holds => exact absurd holds (Options.not_holds_of_other get no _)
  | other get' _ =>
    obtain rfl := Option.some.inj (get.symm.trans get')
    rfl

/-! ### The number of features -/

/-- The number of features that options say, by its current name or else by the older one. -/
def NumFeatures (o : Options) (n : Nat) : Prop :=
  o.Count numFeaturesKey (some n) ∨
    o.Count numFeaturesKey none ∧ o.Count numAttributesKey (some n)

/-- Only counts matter; the older name does not if there is one under the current name. -/
theorem numFeaturesOf_eq (o : Options) :
    numFeaturesOf o =
      match countOf o numFeaturesKey with
      | .error e => .error e
      | .ok (some n) => .ok n
      | .ok none =>
        match countOf o numAttributesKey with
        | .error e => .error e
        | .ok (some n) => .ok n
        | .ok none => .error .missingNumFeatures := by
  rw [numFeaturesOf, countOf, countOf]
  cases o.int? numFeaturesKey with
  | error e => rfl
  | ok z? =>
    simp only [bind, Except.bind, Functor.map, Except.map]
    cases count? z? with
    | some n => rfl
    | none =>
      cases o.int? numAttributesKey with
      | error e => rfl
      | ok z? =>
        dsimp only
        cases count? z? <;> rfl

theorem NumFeatures.lt {n : Nat} (h : NumFeatures o n) : n < 2 ^ 63 := by
  rcases h with h | ⟨-, h⟩
  · exact h.lt
  · exact h.lt

/-- A number of features is read where options say one. -/
theorem numFeaturesOf_eq_ok_iff {n : Nat} : numFeaturesOf o = .ok n ↔ NumFeatures o n := by
  rw [numFeaturesOf_eq, NumFeatures, ← countOf_eq_ok_iff, ← countOf_eq_ok_iff, ← countOf_eq_ok_iff]
  rcases countOf o numFeaturesKey with e | _ | m
  · simp
  · rcases countOf o numAttributesKey with e | _ | m <;> simp
  · simp

/-! ### Settings -/

/-- The settings are what the options say. -/
structure DescribedBy (s : Settings) (o : Options) : Prop where
  /-- the number of features -/
  numFeatures : NumFeatures o s.numFeatures
  /-- what the first index is -/
  indexBase : o.Flag zeroBasedIndexingKey true (decide (s.indexBase = .zero))
  /-- whether records keep their labels -/
  appendLabel : o.Flag appendLabelKey true s.appendLabel
  /-- whether labels are indices -/
  multilabel : o.Flag multilabelKey false s.multilabel
  /-- the number of labels -/
  numLabels : o.Count numLabelsKey s.numLabels

/-- The settings that are put together from their parts, if no part is missing. -/
def assemble (numFeatures : Nat) (zeroBased appendLabel multilabel : Bool)
    (numLabels : Option Nat) : Except SettingsError Settings :=
  if h : multilabel = true → numLabels.isSome = true then
    .ok ⟨numFeatures, if zeroBased then .zero else .one, appendLabel, multilabel, numLabels, h⟩
  else
    .error .missingNumLabels

theorem decide_indexBase (zeroBased : Bool) :
    decide ((if zeroBased then IndexBase.zero else .one) = .zero) = zeroBased := by
  cases zeroBased <;> rfl

/-- Settings are put together from what is read. -/
theorem ofOptions_eq (o : Options) :
    ofOptions o = (do
      assemble (← numFeaturesOf o) (← o.bool zeroBasedIndexingKey true)
        (← o.bool appendLabelKey true) (← o.bool multilabelKey false)
        (← countOf o numLabelsKey)) := by
  rw [ofOptions, countOf]
  cases o.int? numLabelsKey with
  | error e => rfl
  | ok z? => rfl

/-! ### Options that come to the same -/

/-- The names of the options that are counts. -/
def countKeys : List String := [numFeaturesKey, numAttributesKey, numLabelsKey]

/-- The names of the options that are truth values. -/
def flagKeys : List String := [zeroBasedIndexingKey, appendLabelKey, multilabelKey]

/-- The names of all options. -/
def optionKeys : List String := countKeys ++ flagKeys

theorem countOf_congr (h : o.get? key = o'.get? key) : countOf o key = countOf o' key := by
  rw [countOf, countOf, Options.int?, Options.int?, h]

/-- Of the counts only the two matter. -/
theorem ofOptions_congr_of (hfeatures : numFeaturesOf o = numFeaturesOf o')
    (hlabels : countOf o numLabelsKey = countOf o' numLabelsKey)
    (hflags : ∀ key ∈ flagKeys, o.get? key = o'.get? key) : ofOptions o = ofOptions o' := by
  have hbool : ∀ key ∈ flagKeys, ∀ default, o.bool key default = o'.bool key default := by
    intro key hmem default
    rw [Options.bool, Options.bool, hflags key hmem]
  rw [ofOptions_eq, ofOptions_eq, hfeatures, hlabels, hbool _ (by simp [flagKeys]),
    hbool _ (by simp [flagKeys]), hbool _ (by simp [flagKeys])]

theorem ofOptions_congr_counts (hcounts : ∀ key ∈ countKeys, countOf o key = countOf o' key)
    (hflags : ∀ key ∈ flagKeys, o.get? key = o'.get? key) : ofOptions o = ofOptions o' := by
  refine ofOptions_congr_of ?_ (hcounts _ (by simp [countKeys])) hflags
  rw [numFeaturesOf_eq, numFeaturesOf_eq, hcounts _ (by simp [countKeys]),
    hcounts _ (by simp [countKeys])]

/-- **No other option matters.** -/
theorem ofOptions_congr (h : ∀ key ∈ optionKeys, o.get? key = o'.get? key) :
    ofOptions o = ofOptions o' := by
  refine ofOptions_congr_counts ?_ ?_
  · intro key hmem
    exact countOf_congr (h key (List.mem_append_left _ hmem))
  · intro key hmem
    exact h key (List.mem_append_right _ hmem)

/-- **A count that is negative is as good as unset.** -/
theorem ofOptions_congr_of_none (hkey : key ∈ countKeys) (hnone : o.Count key none)
    (hnone' : o'.Count key none)
    (h : ∀ other ∈ optionKeys, other ≠ key → o.get? other = o'.get? other) :
    ofOptions o = ofOptions o' := by
  refine ofOptions_congr_counts ?_ ?_
  · intro other hmem
    by_cases heq : other = key
    · rw [heq, countOf_eq_ok_iff.2 hnone, countOf_eq_ok_iff.2 hnone']
    · exact countOf_congr (h other (List.mem_append_left _ hmem) heq)
  · intro other hmem
    refine h other (List.mem_append_right _ hmem) ?_
    rintro rfl
    have hdisjoint : ∀ key ∈ countKeys, key ∉ flagKeys := by decide
    exact hdisjoint _ hkey hmem

/-- **The older name does not matter** if there is a number under the current one. -/
theorem ofOptions_congr_of_numFeatures {n : Nat} (hnow : o.Count numFeaturesKey (some n))
    (h : ∀ other ∈ optionKeys, other ≠ numAttributesKey → o.get? other = o'.get? other) :
    ofOptions o = ofOptions o' := by
  have hsame : countOf o numFeaturesKey = countOf o' numFeaturesKey :=
    countOf_congr (h _ (by simp [optionKeys, countKeys]) (by decide))
  refine ofOptions_congr_of ?_ (countOf_congr (h _ (by simp [optionKeys, countKeys]) (by decide))) ?_
  · rw [numFeaturesOf_eq, numFeaturesOf_eq, ← hsame, countOf_eq_ok_iff.2 hnow]
  · intro other hmem
    refine h other (List.mem_append_right _ hmem) ?_
    rintro rfl
    revert hmem
    decide

/-- **A text that is no number is not made up for** by the older name. -/
theorem ofOptions_of_other {text : Text} (get : o.get? numFeaturesKey = some text)
    (no : ∀ z, ¬ text.HoldsInteger z) :
    ofOptions o = .error (.notAnInteger numFeaturesKey text) := by
  rw [ofOptions_eq, numFeaturesOf_eq, countOf, int?_of_other get no]
  rfl

/-! ### Which options make settings up -/

/-- **The settings that are made of options are those that they describe.** -/
theorem ofOptions_eq_ok_iff : ofOptions o = .ok s ↔ s.DescribedBy o := by
  rw [ofOptions_eq]
  constructor
  · intro h
    obtain ⟨numFeatures, hfeatures, h⟩ := exists_of_bind_eq_ok h
    obtain ⟨zeroBased, hzero, h⟩ := exists_of_bind_eq_ok h
    obtain ⟨appendLabel, happend, h⟩ := exists_of_bind_eq_ok h
    obtain ⟨multilabel, hmulti, h⟩ := exists_of_bind_eq_ok h
    obtain ⟨numLabels, hlabels, h⟩ := exists_of_bind_eq_ok h
    rw [assemble] at h
    split at h
    · cases h
      refine ⟨numFeaturesOf_eq_ok_iff.1 hfeatures, ?_, Options.bool_eq_ok_iff.1 happend,
        Options.bool_eq_ok_iff.1 hmulti, countOf_eq_ok_iff.1 hlabels⟩
      dsimp only
      rw [decide_indexBase]
      exact Options.bool_eq_ok_iff.1 hzero
    · cases h
  · intro h
    have hbase : (if decide (s.indexBase = .zero) then IndexBase.zero else .one) = s.indexBase := by
      cases s.indexBase <;> rfl
    rw [numFeaturesOf_eq_ok_iff.2 h.numFeatures, Options.bool_eq_ok_iff.2 h.indexBase,
      Options.bool_eq_ok_iff.2 h.appendLabel, Options.bool_eq_ok_iff.2 h.multilabel,
      countOf_eq_ok_iff.2 h.numLabels]
    refine (dif_pos s.numLabels_isSome).trans ?_
    simp only [hbase]

/-- Options that make settings up. -/
structure Valid (o : Options) : Prop where
  /-- a number of features is said, by its current name or else by the older one -/
  numFeatures : ∃ n, NumFeatures o n
  /-- truth values are -/
  flags : ∀ key ∈ flagKeys, ∀ text, o.get? key = some text → ∃ b, text.HoldsBool b
  /-- the number of labels is a whole number, if it is set -/
  numLabels : ∀ text, o.get? numLabelsKey = some text → ∃ z, text.HoldsInteger z
  /-- labels that are indices need a number that is not negative -/
  multilabel : ∀ text, o.get? multilabelKey = some text → text.HoldsBool true →
    ∃ n : Nat, o.Holds numLabelsKey n

/-- **Options make settings up if they are valid.** -/
theorem exists_ofOptions_iff : (∃ s, ofOptions o = .ok s) ↔ Valid o := by
  simp only [ofOptions_eq_ok_iff]
  constructor
  · rintro ⟨s, h⟩
    refine ⟨⟨_, h.numFeatures⟩, ?_, Options.exists_count_iff.1 ⟨_, h.numLabels⟩, ?_⟩
    · intro key hmem
      simp only [flagKeys, List.mem_cons, List.not_mem_nil, or_false] at hmem
      rcases hmem with rfl | rfl | rfl
      · exact Options.exists_flag_iff.1 ⟨_, h.indexBase⟩
      · exact Options.exists_flag_iff.1 ⟨_, h.appendLabel⟩
      · exact Options.exists_flag_iff.1 ⟨_, h.multilabel⟩
    · intro text hget hword
      have hmulti : s.multilabel = true := h.multilabel.eq (.word hget hword)
      obtain ⟨n, hn⟩ := Option.isSome_iff_exists.1 (s.numLabels_isSome hmulti)
      have hcount := h.numLabels
      rw [hn] at hcount
      cases hcount with
      | number holds => exact ⟨n, holds⟩
  · intro h
    obtain ⟨numFeatures, hfeatures⟩ := h.numFeatures
    have hflag : ∀ key ∈ flagKeys, ∀ default, ∃ b, o.Flag key default b :=
      fun key hmem default => Options.exists_flag_iff.2 (h.flags key hmem)
    obtain ⟨zeroBased, hzero⟩ := hflag zeroBasedIndexingKey (by simp [flagKeys]) true
    obtain ⟨appendLabel, happend⟩ := hflag appendLabelKey (by simp [flagKeys]) true
    obtain ⟨multilabel, hmulti⟩ := hflag multilabelKey (by simp [flagKeys]) false
    obtain ⟨numLabels, hlabels⟩ := Options.exists_count_iff.2 h.numLabels
    have hneeded : multilabel = true → numLabels.isSome = true := by
      rintro rfl
      cases hmulti with
      | word get holds =>
        obtain ⟨n, hn⟩ := h.multilabel _ get holds
        rw [count_eq hlabels (.number hn)]
        rfl
    refine ⟨⟨numFeatures, if zeroBased then .zero else .one, appendLabel, multilabel, numLabels,
      hneeded⟩, hfeatures, ?_, happend, hmulti, hlabels⟩
    dsimp only
    rw [decide_indexBase]
    exact hzero

/-- **Which options make settings up, and which settings.** Of options that are set one after
another, the last text under each of six names counts, and nothing else. They make settings up if
they are valid, and the settings are those that they describe. The older name of the number of
features makes up for no text under the current one that is not a number, and does not matter if
there is a number of features there; a count below zero is as good as none. -/
theorem ofOptions_ofSets (sets : List (String × Text)) :
    let o := Options.ofSets sets
    (∀ key text, o.get? key = some text ↔ Options.LastSet sets key text) ∧
      (∀ sets', (∀ key ∈ optionKeys, Options.Agree sets sets' key) →
        ofOptions o = ofOptions (.ofSets sets')) ∧
      ((∃ s, ofOptions o = .ok s) ↔ Valid o) ∧
      (∀ s, ofOptions o = .ok s ↔ s.DescribedBy o) ∧
      (∀ s, ofOptions o = .ok s → s.numFeatures < 2 ^ 63 ∧ ∀ n ∈ s.numLabels, n < 2 ^ 63) ∧
      (∀ text, Options.LastSet sets numFeaturesKey text → (∀ z, ¬ text.HoldsInteger z) →
        ofOptions o = .error (.notAnInteger numFeaturesKey text)) ∧
      (∀ sets' n, o.Count numFeaturesKey (some n) →
        (∀ key ∈ optionKeys, key ≠ numAttributesKey → Options.Agree sets sets' key) →
          ofOptions o = ofOptions (.ofSets sets')) ∧
      ∀ sets', ∀ key ∈ countKeys, o.Count key none → (Options.ofSets sets').Count key none →
        (∀ other ∈ optionKeys, other ≠ key → Options.Agree sets sets' other) →
          ofOptions o = ofOptions (.ofSets sets') := by
  intro o
  refine ⟨fun _ _ => Options.get?_ofSets_eq_some_iff, ?_, exists_ofOptions_iff,
    fun _ => ofOptions_eq_ok_iff, ?_, ?_, ?_, ?_⟩
  · intro sets' h
    exact ofOptions_congr fun key hmem => Options.agree_iff.1 (h key hmem)
  · intro s hs
    have hdescribed := ofOptions_eq_ok_iff.1 hs
    refine ⟨hdescribed.numFeatures.lt, ?_⟩
    intro n hn
    have hcount := hdescribed.numLabels
    rw [Option.mem_def.1 hn] at hcount
    exact hcount.lt
  · intro text hset hno
    exact ofOptions_of_other (Options.get?_ofSets_eq_some_iff.2 hset) hno
  · intro sets' n hn h
    exact ofOptions_congr_of_numFeatures hn fun key hmem hne => Options.agree_iff.1 (h key hmem hne)
  · intro sets' key hkey hnone hnone' h
    exact ofOptions_congr_of_none hkey hnone hnone'
      fun other hmem hne => Options.agree_iff.1 (h other hmem hne)

/-- The number of features is negative, so the older name counts, in whichever order they are set;
`x` is no number, and the older name does not help; if there is a number, `x` does not harm. A
number of labels below zero is as good as none. -/
theorem ofOptions_ofSets_older_name :
    let older := [(numFeaturesKey, ['-', '1']), (numAttributesKey, [' ', '7']),
      (multilabelKey, ['T', 'r', 'u', 'e']), (numLabelsKey, ['+', '3'])]
    let shuffled := [(numLabelsKey, ['x']), (multilabelKey, ['T', 'r', 'u', 'e']), ("other", []),
      (numLabelsKey, ['+', '3']), (numAttributesKey, [' ', '7']), (numFeaturesKey, ['-', '1'])]
    ofOptions (.ofSets older) = ofOptions (.ofSets shuffled) ∧
      ofOptions (.ofSets [(numFeaturesKey, ['x']), (numAttributesKey, ['7'])]) =
        .error (.notAnInteger numFeaturesKey ['x']) ∧
      ofOptions (.ofSets [(numFeaturesKey, ['5']), (numAttributesKey, ['x'])]) =
        ofOptions (.ofSets [(numFeaturesKey, ['5'])]) ∧
      ofOptions (.ofSets [(numFeaturesKey, ['5']), (numLabelsKey, ['-', '2'])]) =
        ofOptions (.ofSets [(numFeaturesKey, ['5'])]) := by
  intro older shuffled
  have hno : ∀ z, ¬ Text.HoldsInteger ['x'] z := Text.not_holdsInteger_of_int64? (by decide)
  refine ⟨?_, ?_, ?_, ?_⟩
  · obtain ⟨-, hlast, -⟩ := ofOptions_ofSets older
    refine hlast shuffled ?_
    simp only [Options.agree_iff]
    decide
  · obtain ⟨hget, -, -, -, -, hother, -⟩ :=
      ofOptions_ofSets [(numFeaturesKey, ['x']), (numAttributesKey, ['7'])]
    exact hother ['x'] ((hget _ _).1 (by decide)) hno
  · obtain ⟨-, -, -, -, -, -, holder, -⟩ :=
      ofOptions_ofSets [(numFeaturesKey, ['5']), (numAttributesKey, ['x'])]
    refine holder [(numFeaturesKey, ['5'])] 5 (countOf_eq_ok_iff.1 (by decide)) ?_
    simp only [Options.agree_iff]
    decide
  · obtain ⟨-, -, -, -, -, -, -, hnone⟩ :=
      ofOptions_ofSets [(numFeaturesKey, ['5']), (numLabelsKey, ['-', '2'])]
    refine hnone [(numFeaturesKey, ['5'])] numLabelsKey (by decide)
      (countOf_eq_ok_iff.1 (by decide)) (countOf_eq_ok_iff.1 (by decide)) ?_
    simp only [Options.agree_iff]
    decide

end Settings

end SvmLight
