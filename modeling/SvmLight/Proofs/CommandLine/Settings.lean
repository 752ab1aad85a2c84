import SvmLight.CommandLine.Arguments
import SvmLight.Proofs.Settings
import SvmLight.Proofs.Value

/-!
# Settings that a command line asks for

The arguments on reading are written as options, and settings are made of these by reading them
again. Nothing is lost on the way: numbers and truth values are read back as they were, whatever
they are. The older name of the number of features is never set, so it cannot make up for a negative
number under the current one.

* `Options.int?_of_get?`, `Options.bool_of_get?` — what is written as an option is read back.
* `Arguments.get?_options` — which option holds what.
* `Arguments.ofOptions_options_eq` — the settings, without the texts in between.
* `Arguments.AsksFor`, `Arguments.Unsound` — the settings that arguments ask for, and why they may
  ask for none.
* `Arguments.ofOptions_options` — **these are the settings that are made of them**.
-/

namespace SvmLight

/-! ### Texts without blanks -/

theorem Text.trim_of_not_blank {t : Text} (h : ∀ c ∈ t, isBlank c = false) : t.trim = t := by
  have htrimmed : Trimmed t :=
    ⟨fun c hc => h c (List.mem_of_mem_head? hc), fun c hc => h c (List.mem_of_mem_getLast? hc)⟩
  have htrim := trim_eq blank_nil htrimmed blank_nil
  rwa [List.nil_append, List.append_nil] at htrim

theorem Numeral.not_blank_of_mem_integer {z : Int} {c : Char} (h : c ∈ integer z) :
    Text.isBlank c = false := by
  rw [integer] at h
  split at h
  · rcases List.mem_cons.1 h with rfl | h
    · decide
    · exact Text.isBlank_of_isDigit (isDigit_of_mem_natural h)
  · exact Text.isBlank_of_isDigit (isDigit_of_mem_natural h)

/-! ### Reading options back -/

namespace Options

variable {o : Options} {key : String}

/-- **A number is read back**, whichever it is. -/
theorem int?_of_get? {n : Int64} (h : o.get? key = some (Numeral.integer n.toInt)) :
    o.int? key = .ok (some n) := by
  rw [int?, h]
  dsimp only
  rw [Text.trim_of_not_blank fun _ hc => Numeral.not_blank_of_mem_integer hc,
    Numeral.int64?_integer]

/-- **A truth value is read back.** -/
theorem bool_of_get? {default b : Bool} (h : o.get? key = some (Arguments.truthText b)) :
    o.bool key default = .ok b := by
  rw [bool_eq_ok_iff]
  refine .word h ?_
  cases b with
  | true => rfl
  | false => rfl

end Options

namespace Settings

/-- A count is a number that is there and is not negative. -/
theorem count?_eq_some_iff_exists {n? : Option Int64} {m : Nat} :
    count? n? = some m ↔ ∃ n, n? = some n ∧ n.toInt = m := by
  cases n? with
  | none => simp [count?]
  | some n => simp [count?_eq_some_iff]

theorem assemble_eq_ok_iff {numFeatures : Nat} {zeroBased appendLabel multilabel : Bool}
    {numLabels : Option Nat} {s : Settings} :
    assemble numFeatures zeroBased appendLabel multilabel numLabels = .ok s ↔
      s.numFeatures = numFeatures ∧ s.indexBase = (if zeroBased then .zero else .one) ∧
        s.appendLabel = appendLabel ∧ s.multilabel = multilabel ∧ s.numLabels = numLabels := by
  refine ⟨?_, ?_⟩
  · intro h
    rw [assemble] at h
    split at h
    · cases h
      exact ⟨rfl, rfl, rfl, rfl, rfl⟩
    · cases h
  · rintro ⟨rfl, hbase, rfl, rfl, rfl⟩
    rw [assemble, dif_pos s.numLabels_isSome, ← hbase]

/-- A number of labels that is needed may be missing, and nothing else. -/
theorem assemble_eq_error_iff {numFeatures : Nat} {zeroBased appendLabel multilabel : Bool}
    {numLabels : Option Nat} {e : SettingsError} :
    assemble numFeatures zeroBased appendLabel multilabel numLabels = .error e ↔
      multilabel = true ∧ numLabels = none ∧ e = .missingNumLabels := by
  rw [assemble]
  split
  · rename_i hgiven
    refine iff_of_false (by simp) ?_
    rintro ⟨hmulti, rfl, -⟩
    cases hgiven hmulti
  · rename_i hmissing
    obtain ⟨hmulti, hnone⟩ := Classical.not_imp.1 hmissing
    rw [Bool.not_eq_true, Option.isSome_eq_false_iff, Option.isNone_iff_eq_none] at hnone
    simp [hmulti, hnone, eq_comm]

end Settings

/-! ### The arguments as options -/

namespace Arguments

open Settings (numFeaturesKey numAttributesKey zeroBasedIndexingKey appendLabelKey multilabelKey
  numLabelsKey)

variable {a : Arguments} {s : Settings} {e : SettingsError}

/-- **Which option holds what.** The older name of the number of features is never set. -/
theorem get?_options (a : Arguments) :
    a.options.get? numFeaturesKey = some (Numeral.integer a.numFeatures.toInt) ∧
      a.options.get? numAttributesKey = none ∧
      a.options.get? zeroBasedIndexingKey = some (truthText !a.oneBased) ∧
      a.options.get? appendLabelKey = some (truthText !a.noLabels) ∧
      a.options.get? multilabelKey = some (truthText a.multilabel) ∧
      a.options.get? numLabelsKey = a.numLabels.map fun n => Numeral.integer n.toInt := by
  rw [options]
  cases a.numLabels with
  | none => exact ⟨rfl, rfl, rfl, rfl, rfl, rfl⟩
  | some n => exact ⟨rfl, rfl, rfl, rfl, rfl, rfl⟩

/-- The number of labels is read back, if there is one. -/
theorem int?_numLabels (a : Arguments) : a.options.int? numLabelsKey = .ok a.numLabels := by
  obtain ⟨-, -, -, -, -, hlabels⟩ := a.get?_options
  cases hnum : a.numLabels with
  | none =>
    rw [hnum] at hlabels
    rw [Options.int?, hlabels]
    rfl
  | some n =>
    rw [hnum] at hlabels
    exact Options.int?_of_get? hlabels

/-- The number of features is read back, and nothing makes up for one that is negative. -/
theorem numFeaturesOf_options (a : Arguments) :
    Settings.numFeaturesOf a.options =
      match Settings.count? (some a.numFeatures) with
      | some n => .ok n
      | none => .error .missingNumFeatures := by
  obtain ⟨hfeatures, hattributes, -⟩ := a.get?_options
  have holder : a.options.int? numAttributesKey = .ok none := by
    rw [Options.int?, hattributes]
  rw [Settings.numFeaturesOf_eq, Settings.countOf, Settings.countOf,
    Options.int?_of_get? hfeatures, holder]
  simp only [Functor.map, Except.map]
  cases Settings.count? (some a.numFeatures) with
  | none => rfl
  | some n => rfl

/-- **The settings, without the texts in between.** -/
theorem ofOptions_options_eq (a : Arguments) :
    Settings.ofOptions a.options =
      match Settings.count? (some a.numFeatures) with
      | some n => Settings.assemble n (!a.oneBased) (!a.noLabels) a.multilabel
          (Settings.count? a.numLabels)
      | none => .error .missingNumFeatures := by
  obtain ⟨-, -, hzero, happend, hmulti, -⟩ := a.get?_options
  rw [Settings.ofOptions_eq, numFeaturesOf_options, Options.bool_of_get? hzero,
    Options.bool_of_get? happend, Options.bool_of_get? hmulti, Settings.countOf, int?_numLabels]
  cases Settings.count? (some a.numFeatures) with
  | none => rfl
  | some n => rfl

/-! ### What arguments ask for -/

/-- The number of labels is given, and this is it. A negative one is as good as none. -/
def NumLabels (a : Arguments) (n : Nat) : Prop := ∃ z, a.numLabels = some z ∧ z.toInt = n

/-- The arguments ask for some settings. -/
structure Sound (a : Arguments) : Prop where
  /-- the number of features is not negative -/
  numFeatures : 0 ≤ a.numFeatures.toInt
  /-- labels that are indices need a number that is not negative either -/
  numLabels : a.multilabel = true → ∃ n, a.NumLabels n

/-- The arguments ask for no settings, and this is why. -/
inductive Unsound (a : Arguments) : SettingsError → Prop where
  /-- the number of features is negative -/
  | numFeatures (lt : a.numFeatures.toInt < 0) : Unsound a .missingNumFeatures
  /-- labels are indices, and their number is not given or negative -/
  | numLabels (le : 0 ≤ a.numFeatures.toInt) (multilabel : a.multilabel = true)
      (not : ∀ n, ¬a.NumLabels n) : Unsound a .missingNumLabels

/-- The settings are those that the arguments ask for. -/
structure AsksFor (a : Arguments) (s : Settings) : Prop where
  /-- the number of features stays what it is -/
  numFeatures : (s.numFeatures : Int) = a.numFeatures.toInt
  /-- indices count from zero unless they are to count from one -/
  indexBase : s.indexBase = if a.oneBased then .one else .zero
  /-- labels are kept unless they are to be left out -/
  appendLabel : s.appendLabel = !a.noLabels
  /-- labels are indices if they are to be -/
  multilabel : s.multilabel = a.multilabel
  /-- the number of labels stays what it is, if it is not negative -/
  numLabels : ∀ n, s.numLabels = some n ↔ a.NumLabels n

theorem numLabels_eq_iff {n? : Option Nat} :
    n? = Settings.count? a.numLabels ↔ ∀ n, n? = some n ↔ a.NumLabels n := by
  rw [Option.ext_iff]
  simp only [Settings.count?_eq_some_iff_exists, NumLabels]

theorem asksFor_iff {n : Nat} (hn : a.numFeatures.toInt = n) :
    a.AsksFor s ↔ Settings.assemble n (!a.oneBased) (!a.noLabels) a.multilabel
      (Settings.count? a.numLabels) = .ok s := by
  have hbase : (if !a.oneBased then IndexBase.zero else .one) =
      if a.oneBased then .one else .zero := by
    cases a.oneBased <;> rfl
  rw [Settings.assemble_eq_ok_iff, hbase, numLabels_eq_iff]
  refine ⟨?_, ?_⟩
  · rintro ⟨hfeatures, hindex, happend, hmulti, hlabels⟩
    exact ⟨by omega, hindex, happend, hmulti, hlabels⟩
  · rintro ⟨hfeatures, hindex, happend, hmulti, hlabels⟩
    exact ⟨by omega, hindex, happend, hmulti, hlabels⟩

/-- **The settings that are made of arguments are those that they ask for.** -/
theorem ofOptions_eq_ok_iff_asksFor : Settings.ofOptions a.options = .ok s ↔ a.AsksFor s := by
  rw [ofOptions_options_eq]
  cases hcount : Settings.count? (some a.numFeatures) with
  | none =>
    have hneg := Settings.count?_eq_none_iff.1 hcount
    refine iff_of_false (by simp) ?_
    intro h
    have hfeatures := h.numFeatures
    omega
  | some n => exact (asksFor_iff (Settings.count?_eq_some_iff.1 hcount)).symm

/-- **No settings are made of arguments that ask for none.** -/
theorem ofOptions_eq_error_iff_unsound :
    Settings.ofOptions a.options = .error e ↔ a.Unsound e := by
  rw [ofOptions_options_eq]
  cases hcount : Settings.count? (some a.numFeatures) with
  | none =>
    have hneg := Settings.count?_eq_none_iff.1 hcount
    refine ⟨?_, ?_⟩
    · rintro ⟨⟩
      exact .numFeatures hneg
    · intro h
      cases h with
      | numFeatures lt => rfl
      | numLabels le _ _ => omega
  | some n =>
    have hn := Settings.count?_eq_some_iff.1 hcount
    have hnone : Settings.count? a.numLabels = none ↔ ∀ n, ¬a.NumLabels n := by
      rw [eq_comm, numLabels_eq_iff]
      simp
    rw [Settings.assemble_eq_error_iff, hnone]
    refine ⟨?_, ?_⟩
    · rintro ⟨hmulti, hnot, rfl⟩
      exact .numLabels (by omega) hmulti hnot
    · intro h
      cases h with
      | numFeatures lt => omega
      | numLabels _ multilabel not => exact ⟨multilabel, not, rfl⟩

/-- Arguments ask for some settings, or there is a reason why they ask for none. -/
theorem sound_iff : a.Sound ↔ ∀ e, ¬a.Unsound e := by
  refine ⟨?_, ?_⟩
  · intro h e he
    cases he with
    | numFeatures lt => exact Int.not_lt.2 h.numFeatures lt
    | numLabels _ multilabel not =>
      obtain ⟨n, hn⟩ := h.numLabels multilabel
      exact not n hn
  · intro h
    have hfeatures : 0 ≤ a.numFeatures.toInt := Int.not_lt.1 fun lt => h _ (.numFeatures lt)
    refine ⟨hfeatures, fun hmulti => ?_⟩
    by_contra hnot
    exact h _ (.numLabels hfeatures hmulti (not_exists.1 hnot))

/-- **Settings that a command line asks for.** The arguments on reading are written as options and
read again. Settings come of it if the number of features is not negative, and the number of labels
is given and not negative where labels are indices; they are those that the arguments ask for.
Otherwise the error says which number is missing. No other argument matters. -/
theorem ofOptions_options (a : Arguments) :
    ((∃ s, Settings.ofOptions a.options = .ok s) ↔ a.Sound) ∧
      (∀ s, Settings.ofOptions a.options = .ok s ↔ a.AsksFor s) ∧
      (∀ e, Settings.ofOptions a.options = .error e ↔ a.Unsound e) ∧
      ∀ inputs limit batchSize shuffle seed validationRatio verbose,
        Settings.ofOptions ({ a with
          inputs, limit, batchSize, shuffle, seed, validationRatio, verbose }).options =
            Settings.ofOptions a.options := by
  refine ⟨?_, fun _ => ofOptions_eq_ok_iff_asksFor, fun _ => ofOptions_eq_error_iff_unsound, ?_⟩
  · rw [sound_iff]
    simp only [← ofOptions_eq_error_iff_unsound]
    cases Settings.ofOptions a.options with
    | error e => simp
    | ok s => simp
  · intro inputs limit batchSize shuffle seed validationRatio verbose
    rfl

end Arguments

end SvmLight
