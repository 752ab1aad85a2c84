import SvmLight.Double.Basic
import SvmLight.Settings

/-!
# Arguments

What a command line asks for: which files to read, how to read them, and what to do with the
records. `Arguments.options` hands the part on reading over as options, so that settings are
judged in one place only.
-/

namespace SvmLight

/-- What a command line asks for. -/
structure Arguments where
  /-- the files, in the order in which they are read -/
  inputs : List String
  /-- the number of features in every record -/
  numFeatures : Int64
  /-- whether indices count from one -/
  oneBased : Bool
  /-- whether labels are left out -/
  noLabels : Bool
  /-- whether labels are indices -/
  multilabel : Bool
  /-- the number of labels -/
  numLabels : Option Int64
  /-- how many records are read at most -/
  limit : Option Nat
  /-- how many records a batch has -/
  batchSize : Nat
  /-- whether records are shuffled -/
  shuffle : Bool
  /-- what decides the shuffle -/
  seed : Option UInt64
  /-- which share of the records is held out -/
  validationRatio : Double
  /-- whether to log every detail -/
  verbose : Bool
deriving DecidableEq

namespace Arguments

/-- The batch size where none is given. -/
def defaultBatchSize : Nat := 64

/-- The text of a truth value, as options have it. -/
def truthText (b : Bool) : Text := if b then ['t', 'r', 'u', 'e'] else ['f', 'a', 'l', 's', 'e']

/-- The arguments on reading, as options. Two flags say the opposite of what their options say. -/
def options (a : Arguments) : Options :=
  let always := Options.empty
    |>.set Settings.numFeaturesKey (Numeral.integer a.numFeatures.toInt)
    |>.set Settings.zeroBasedIndexingKey (truthText !a.oneBased)
    |>.set Settings.appendLabelKey (truthText !a.noLabels)
    |>.set Settings.multilabelKey (truthText a.multilabel)
  match a.numLabels with
  | none => always
  | some n => always.set Settings.numLabelsKey (Numeral.integer n.toInt)

end Arguments

end SvmLight
