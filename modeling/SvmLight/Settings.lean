import SvmLight.Options

/-!
# Settings

The settings of a reader are fixed before the first line is read. `Settings.ofOptions` makes them
from options and is the only place where options are judged: settings are valid by their type.

The number of features has two option names. The older one counts where the current one is not
set or is negative; a text that is no number is an error under either.
-/

namespace SvmLight

/-- What the first index is. -/
inductive IndexBase where
  /-- indices count from zero -/
  | zero
  /-- indices count from one -/
  | one
deriving DecidableEq

/-- What becomes of the labels of a line. -/
inductive LabelMode where
  /-- they are left out -/
  | omitted
  /-- they are indices of a vector of this many zeros and ones -/
  | indicator (numLabels : Nat)
  /-- they are kept as they are listed -/
  | listed
deriving DecidableEq

/-- How lines are to be read. -/
structure Settings where
  /-- the number of features in every record -/
  numFeatures : Nat
  /-- what the first index is -/
  indexBase : IndexBase
  /-- whether records keep their labels -/
  appendLabel : Bool
  /-- whether labels are indices -/
  multilabel : Bool
  /-- the number of labels, where it is known beforehand -/
  numLabels : Option Nat
  /-- labels that are indices need a bound -/
  numLabels_isSome : multilabel = true → numLabels.isSome = true
deriving DecidableEq

namespace Settings

/-- What becomes of the labels of a line under these settings. -/
def labelMode (s : Settings) : LabelMode :=
  if s.appendLabel then
    match s.multilabel, s.numLabels with
    | true, some n => .indicator n
    | _, _ => .listed
  else .omitted

/-! ### Option names -/

/-- Names the number of features. -/
def numFeaturesKey : String := "svmlight.numFeatures"

/-- Names the number of features, too; the older name. -/
def numAttributesKey : String := "svmlight.numAttributes"

/-- Names whether indices count from zero; they do if it is not set. -/
def zeroBasedIndexingKey : String := "svmlight.zeroBasedIndexing"

/-- Names whether records keep their labels; they do if it is not set. -/
def appendLabelKey : String := "svmlight.appendLabel"

/-- Names whether labels are indices; they are not if it is not set. -/
def multilabelKey : String := "svmlight.multilabel"

/-- Names the number of labels. -/
def numLabelsKey : String := "svmlight.numLabels"

/-! ### From options -/

/-- A number as a count: negative numbers are none. -/
def count? (n : Option Int64) : Option Nat :=
  (n.filter fun z => 0 ≤ z.toInt).map fun z => z.toInt.toNat

/-- The number of features, by its current name or else by the older one. -/
def numFeaturesOf (o : Options) : Except SettingsError Nat := do
  match count? (← o.int? numFeaturesKey) with
  | some n => return n
  | none =>
    match count? (← o.int? numAttributesKey) with
    | some n => return n
    | none => throw .missingNumFeatures

/-- The settings that the options make up, or the first thing that is wrong with them. -/
def ofOptions (o : Options) : Except SettingsError Settings := do
  let numFeatures ← numFeaturesOf o
  let zeroBased ← o.bool zeroBasedIndexingKey true
  let appendLabel ← o.bool appendLabelKey true
  let multilabel ← o.bool multilabelKey false
  let numLabels := count? (← o.int? numLabelsKey)
  let indexBase := if zeroBased then .zero else .one
  if h : multilabel = true → numLabels.isSome = true then
    return ⟨numFeatures, indexBase, appendLabel, multilabel, numLabels, h⟩
  else
    throw .missingNumLabels

end Settings

end SvmLight
