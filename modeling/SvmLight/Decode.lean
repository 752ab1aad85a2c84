import SvmLight.Labels
import SvmLight.Line

/-!
# Decoding a line

`Settings.decode` turns a line into a record: the features first, then the labels, so of a line
with bad features and bad labels the features are reported.

Where labels are listed, all lines have as many as the first line that was decoded. That number is
no part of the settings: the caller keeps it, hands it in as `count`, and takes the one after a
record from `Settings.countAfter`. A line that fails does not fix it.
-/

namespace SvmLight.Settings

/-- Decodes the label field of a line, as the settings have it. -/
def decodeLabels (s : Settings) (count : Option Nat) (field : Text) :
    Outcome DecodeError (List Value) :=
  match s.labelMode with
  | .omitted => .ok []
  | .indicator numLabels => Labels.indicator s.indexBase numLabels field
  | .listed => .ofExcept (Labels.listed count field)

/-- Decodes a line that is not a comment; `count` is the number of listed labels, where it is
known. -/
def decode (s : Settings) (count : Option Nat) (line : Text) : Outcome DecodeError Record := do
  let (field, tokens) := Line.fields line
  let features ← Features.decode s tokens
  let labels ← s.decodeLabels count field
  return ⟨features, labels⟩

/-- The number of listed labels after a record has been decoded. -/
def countAfter (s : Settings) (count : Option Nat) (record : Record) : Option Nat :=
  match s.labelMode with
  | .listed => count.or (some record.labels.length)
  | _ => count

end SvmLight.Settings
