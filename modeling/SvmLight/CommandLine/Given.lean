import SvmLight.CommandLine.Arguments
import SvmLight.Double.Literal
import SvmLight.FileSystem
import SvmLight.Text.Controls

/-!
# What is given on a command line

A command line names **flags**, which are on if they are named, and **parameters**, which have a
value, and it lists input files. Each flag and each parameter may be given once. `Given` collects
them; `Given.arguments` is what they come to in the end.

`UsageError` has all the ways in which a command line can be wrong. Asking for help is one of
them, as it also ends the reading.
-/

namespace SvmLight

/-! ### Names -/

/-- What is on if it is named. -/
inductive Flag where
  /-- indices count from one -/
  | oneBased
  /-- labels are left out -/
  | noLabels
  /-- labels are indices -/
  | multilabel
  /-- records are shuffled -/
  | shuffle
  /-- every detail is logged -/
  | verbose
deriving DecidableEq

/-- The name of a flag. -/
def Flag.name : Flag → String
  | .oneBased => "one-based"
  | .noLabels => "no-labels"
  | .multilabel => "multilabel"
  | .shuffle => "shuffle"
  | .verbose => "verbose"

/-- What has a value. -/
inductive Parameter where
  /-- the number of features in every record -/
  | numFeatures
  /-- the number of labels -/
  | numLabels
  /-- how many records are read at most -/
  | limit
  /-- how many records a batch has -/
  | batchSize
  /-- what decides the shuffle -/
  | seed
  /-- which share of the records is held out -/
  | validationRatio
deriving DecidableEq

/-- The name of a parameter. -/
def Parameter.name : Parameter → String
  | .numFeatures => "num-features"
  | .numLabels => "num-labels"
  | .limit => "limit"
  | .batchSize => "batch-size"
  | .seed => "seed"
  | .validationRatio => "validation-ratio"

/-- What can be named on a command line. -/
inductive Argument where
  /-- a flag -/
  | flag (f : Flag)
  /-- a parameter -/
  | parameter (p : Parameter)
  /-- a request for help -/
  | help
deriving DecidableEq

namespace Argument

/-- The name of an argument. -/
def name : Argument → String
  | .flag f => f.name
  | .parameter p => p.name
  | .help => "help"

/-- All arguments. -/
def all : List Argument :=
  [.flag .oneBased, .flag .noLabels, .flag .multilabel, .flag .shuffle, .flag .verbose,
    .parameter .numFeatures, .parameter .numLabels, .parameter .limit, .parameter .batchSize,
    .parameter .seed, .parameter .validationRatio, .help]

/-- The argument with a name. A name counts only if it is written in full. -/
def ofName? (name : String) : Option Argument := all.find? fun argument => argument.name == name

/-- The argument with a short name of one letter. -/
def ofLetter? : Char → Option Argument
  | 'v' => some (.flag .verbose)
  | 'h' => some .help
  | _ => none

end Argument

/-! ### Usage errors -/

/-- Why a command line is not carried out. -/
inductive UsageError where
  /-- a word names an argument that there is not -/
  | unknownArgument (word : String)
  /-- something that has no value is given one -/
  | unexpectedValue (name : String)
  /-- a flag or a parameter is given again -/
  | repeated (name : String)
  /-- a parameter is given without its value -/
  | missingValue (p : Parameter)
  /-- the value of a parameter cannot be read -/
  | invalidValue (p : Parameter) (value : String)
  /-- nothing has the path of an input file -/
  | fileNotFound (path : String)
  /-- the path of an input file is not that of a file -/
  | notAFile (path : String)
  /-- these have to be given and are not -/
  | missingArguments (names : List String)
  /-- help is asked for -/
  | helpRequested
deriving DecidableEq

/-- The wording of a usage error. It quotes the command line as it is. -/
def UsageError.wording : UsageError → String
  | .unknownArgument word => "error: unexpected argument '" ++ word ++ "' found"
  | .unexpectedValue name => "error: '--" ++ name ++ "' takes no value"
  | .repeated name => "error: '--" ++ name ++ "' cannot be used multiple times"
  | .missingValue p => "error: a value is required for '--" ++ p.name ++ "'"
  | .invalidValue p value => "error: invalid value '" ++ value ++ "' for '--" ++ p.name ++ "'"
  | .fileNotFound path => "error: File not found: " ++ path
  | .notAFile path => "error: Not a file: " ++ path
  | .missingArguments names => "error: required but not given: " ++ ", ".intercalate names
  | .helpRequested => "usage: <file>... --num-features <n> [--one-based] [--no-labels] "
    ++ "[--multilabel] [--num-labels <n>] [--limit <n>] [--batch-size <n>] [--shuffle] "
    ++ "[--seed <n>] [--validation-ratio <x>] [-v|--verbose] [-h|--help]"

/-- What is shown of a usage error: its wording, so far as it does not control a terminal. -/
def UsageError.message (e : UsageError) : String :=
  String.ofList (Text.withoutControls e.wording.toList)

/-! ### Collecting -/

/-- What a command line has given so far. -/
structure Given where
  /-- the flags that are on -/
  flags : List Flag := []
  /-- the number of features -/
  numFeatures : Option Int64 := none
  /-- the number of labels -/
  numLabels : Option Int64 := none
  /-- how many records are read at most -/
  limit : Option Nat := none
  /-- how many records a batch has -/
  batchSize : Option Nat := none
  /-- what decides the shuffle -/
  seed : Option UInt64 := none
  /-- which share of the records is held out -/
  validationRatio : Option Double := none
  /-- the input files, in order -/
  inputs : List String := []
deriving DecidableEq

/-- The value that a parameter has after it is given, if it has none before and the value can be
read. -/
def Parameter.take {α : Type} (p : Parameter) (old : Option α) (read? : Text → Option α)
    (value : String) : Except UsageError (Option α) :=
  match old, read? value.toList with
  | some _, _ => .error (.repeated p.name)
  | none, some new => .ok (some new)
  | none, none => .error (.invalidValue p value)

/-- Reads a seed. -/
def seed? (t : Text) : Option UInt64 := (Numeral.index? t).map UInt64.ofNat

namespace Given

/-- Takes the value of a parameter. -/
def assign (g : Given) (p : Parameter) (value : String) : Except UsageError Given :=
  match p with
  | .numFeatures => (p.take g.numFeatures Numeral.int64? value).map ({ g with numFeatures := · })
  | .numLabels => (p.take g.numLabels Numeral.int64? value).map ({ g with numLabels := · })
  | .limit => (p.take g.limit Numeral.index? value).map ({ g with limit := · })
  | .batchSize => (p.take g.batchSize Numeral.index? value).map ({ g with batchSize := · })
  | .seed => (p.take g.seed seed? value).map ({ g with seed := · })
  | .validationRatio =>
    (p.take g.validationRatio Double.ofText? value).map ({ g with validationRatio := · })

/-- Switches a flag on. -/
def switchOn (g : Given) (f : Flag) : Except UsageError Given :=
  if f ∈ g.flags then .error (.repeated f.name) else .ok { g with flags := f :: g.flags }

/-- The path of an input file, if it leads to a regular file. It is looked at, but not opened. -/
def checkInput (files : FileSystem) (path : String) : Except UsageError String :=
  match files.entry path with
  | .ok (.file _) => .ok path
  | .ok _ => .error (.notAFile path)
  | .error _ => .error (.fileNotFound path)

/-- Takes input files, the ones that were taken before being in front. -/
def addInputs (files : FileSystem) (g : Given) (paths : List String) : Except UsageError Given :=
  (paths.mapM (checkInput files)).map fun inputs => { g with inputs := g.inputs ++ inputs }

/-- The names of what has to be given and is not. -/
def missing (g : Given) : List String :=
  (if g.inputs.isEmpty then ["<file>..."] else [])
    ++ (if g.numFeatures.isNone then ["--" ++ Parameter.numFeatures.name] else [])

/-- What all that is given comes to. -/
def arguments (g : Given) : Except UsageError Arguments :=
  match g.numFeatures with
  | none => .error (.missingArguments g.missing)
  | some numFeatures =>
    if g.inputs.isEmpty then .error (.missingArguments g.missing)
    else .ok
      { inputs := g.inputs
        numFeatures
        oneBased := .oneBased ∈ g.flags
        noLabels := .noLabels ∈ g.flags
        multilabel := .multilabel ∈ g.flags
        numLabels := g.numLabels
        limit := g.limit
        batchSize := g.batchSize.getD Arguments.defaultBatchSize
        shuffle := .shuffle ∈ g.flags
        seed := g.seed
        validationRatio := g.validationRatio.getD .zero
        verbose := .verbose ∈ g.flags }

end Given

end SvmLight
