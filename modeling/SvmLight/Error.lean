import SvmLight.Numeral
import SvmLight.Utf8

/-!
# Errors

Each kind of failure is a type of causes, and each type has one `message` function with the
wording.

* **decoding** — `DecodeError`: a line does not follow the format, or does not fit the settings;
* **settings** — `SettingsError`: the options do not make up valid settings;
* **input** — `IoError`: a file cannot be opened or read, or a line of it is not text;
* **reading** — `Error`: all of these, the end of the input, and an error together with the
  `Place` of the line that caused it.
-/

namespace SvmLight

/-! ### Decoding -/

/-- What an index counts. -/
inductive IndexKind where
  /-- the features of a record -/
  | feature
  /-- the labels of a problem with several labels -/
  | label
deriving DecidableEq

/-- The word for what an index counts. -/
def IndexKind.word : IndexKind → String
  | .feature => "feature"
  | .label => "label"

/-- Why a line is not a record. -/
inductive DecodeError where
  /-- an index is not a numeral; the token is reported whole -/
  | malformedIndex (kind : IndexKind) (token : Text)
  /-- a feature has no value, or one that is not a number -/
  | malformedValue (token : Text)
  /-- a label is not a number -/
  | malformedLabel (token : Text)
  /-- index zero where indices count from one -/
  | zeroIndex (kind : IndexKind)
  /-- an index, counted from zero, that is not below the bound -/
  | indexOutOfRange (kind : IndexKind) (index bound : Nat)
  /-- a line with another number of labels than the lines before it -/
  | labelCountMismatch (found expected : Nat)
deriving DecidableEq

/-- The wording of a decoding error. -/
def DecodeError.message : DecodeError → String
  | .malformedIndex .feature token =>
    "Feature index must be a non-negative integer (found " ++ String.ofList token ++ ")"
  | .malformedIndex .label token =>
    "Multilabel index must be a non-negative integer (found " ++ String.ofList token ++ ")"
  | .malformedValue token =>
    "Feature value must be a floating point number (found " ++ String.ofList token ++ ")"
  | .malformedLabel token => "Label must be numeric (found " ++ String.ofList token ++ ")"
  | .zeroIndex kind =>
    "Found " ++ kind.word ++ " with index 0 but not using zero-based indexing"
  | .indexOutOfRange kind index bound =>
    "Found " ++ kind.word ++ " index " ++ toString index ++ ", expected fewer than "
      ++ toString bound ++ " " ++ kind.word ++ "s"
  | .labelCountMismatch found expected =>
    "Found " ++ toString found ++ " labels in record, expected " ++ toString expected

/-! ### Settings -/

/-- Why options are not valid settings. -/
inductive SettingsError where
  /-- an option that has to be a whole number is not one -/
  | notAnInteger (key : String) (found : Text)
  /-- an option that has to be true or false is not -/
  | notABoolean (key : String) (found : Text)
  /-- the number of features is not given -/
  | missingNumFeatures
  /-- the number of labels is not given, and a problem with several labels needs it -/
  | missingNumLabels
  /-- a reason given by the caller -/
  | other (reason : String)
deriving DecidableEq

/-- The wording of an error in the settings. -/
def SettingsError.message : SettingsError → String
  | .notAnInteger key found => key ++ " must be an integer (found " ++ String.ofList found ++ ")"
  | .notABoolean key found =>
    key ++ " must be true or false (found " ++ String.ofList found ++ ")"
  | .missingNumFeatures => "numFeatures must be set in configuration"
  | .missingNumLabels => "numLabels must be set in configuration for multilabel problems"
  | .other reason => reason

/-! ### Input -/

/-- Why a line cannot be had from a file. -/
inductive IoError where
  /-- nothing has this path -/
  | notFound
  /-- the path goes on after something that is not a directory -/
  | notADirectory
  /-- a directory has no lines -/
  | isADirectory
  /-- a name on the path, or the path, is longer than file systems take -/
  | nameTooLong
  /-- the path holds a NUL character -/
  | nulInPath
  /-- the file is there, but may not be read -/
  | permissionDenied
  /-- a device fails -/
  | deviceFault
  /-- the line with this number is not UTF-8 -/
  | notUtf8 (line : Nat) (defect : Utf8.Defect)
deriving DecidableEq

/-- The wording of a defect in UTF-8. -/
def Utf8.Defect.message : Utf8.Defect → String
  | .invalid length start =>
    "invalid utf-8 sequence of " ++ toString length ++ " bytes from index " ++ toString start
  | .incomplete start => "incomplete utf-8 byte sequence from index " ++ toString start

/-- The wording of an input error. -/
def IoError.message : IoError → String
  | .notFound => "No such file or directory (os error 2)"
  | .notADirectory => "Not a directory (os error 20)"
  | .isADirectory => "Is a directory (os error 21)"
  | .nameTooLong => "File name too long (os error 36)"
  | .nulInPath => "file name contained an unexpected NUL byte"
  | .permissionDenied => "Permission denied (os error 13)"
  | .deviceFault => "Input/output error (os error 5)"
  | .notUtf8 line defect =>
    "line " ++ toString line ++ " is not valid UTF-8: " ++ defect.message

/-! ### Reading -/

/-- Where a line was read. -/
structure Place where
  /-- the number of the line in its location, counted from one -/
  line : Nat
  /-- the path of the file, for a line from a file -/
  location : Option String
deriving DecidableEq

/-- The wording of a place. -/
def Place.text (p : Place) : String :=
  match p.location with
  | some path => path ++ ":" ++ toString p.line
  | none => "line " ++ toString p.line

/-- Why there is no record. -/
inductive Error where
  /-- the options are not valid settings -/
  | settings (cause : SettingsError)
  /-- a line is not a record -/
  | decoding (cause : DecodeError)
  /-- a line cannot be had -/
  | io (cause : IoError)
  /-- no line is left -/
  | endOfInput
  /-- an error, with the place of the line that caused it -/
  | atLine (place : Place) (cause : Error)
deriving DecidableEq

namespace Error

/-- The wording of an error. -/
def message : Error → String
  | .settings cause => "Invalid configuration: " ++ cause.message
  | .decoding cause => cause.message
  | .io cause => "IO error: " ++ cause.message
  | .endOfInput => "No next element found"
  | .atLine place cause => place.text ++ ": " ++ cause.message

/-- The error without any places. -/
def innermost : Error → Error
  | .atLine _ cause => cause.innermost
  | e => e

/-- The place of the line that caused the error, where it is known; of several the outermost. -/
def place? : Error → Option Place
  | .atLine place _ => some place
  | _ => none

/-- Whether the error only says that no line is left. -/
def isEndOfInput : Error → Bool
  | .endOfInput => true
  | _ => false

end Error

end SvmLight
