import SvmLight.Features

/-!
# Labels

The label field of a line is a list of pieces, separated by commas; an empty field is one empty
piece. It is read in one of two ways:

* **listed** — each piece is a label. A whole number in the range of 64 bits stays one, any other
  number becomes a double. The number of pieces is checked before any piece is.
* **indicator** — each piece is the index of a label that applies to the line, and the result is a
  vector of ones at these indices and zeros elsewhere.
-/

namespace SvmLight.Labels

/-- The pieces of a label field. -/
def pieces (field : Text) : List Text := field.splitOn ','

/-! ### Listed labels -/

/-- Decodes a label: as a whole number if it is one, else as a double. -/
def value (piece : Text) : Except DecodeError Value :=
  match Numeral.int64? piece with
  | some n => .ok (.int n)
  | none =>
    match Double.ofText? piece with
    | some x => .ok (.float x)
    | none => .error (.malformedLabel piece)

/-- Decodes a field as a list of labels, of which there have to be as many as expected if a number
is. -/
def listed (expected : Option Nat) (field : Text) : Except DecodeError (List Value) :=
  let found := (pieces field).length
  match expected with
  | none => (pieces field).mapM value
  | some count =>
    if found = count then (pieces field).mapM value
    else .error (.labelCountMismatch found count)

/-! ### Indicators -/

/-- A label takes this many bytes. -/
def bytesPerLabel : Nat := 16

/-- Decodes a field as the indices of the ones in a vector of zeros and ones. -/
def indicator (base : IndexBase) (numLabels : Nat) (field : Text) :
    Outcome DecodeError (List Value) := do
  Outcome.reserve numLabels bytesPerLabel
  let indices ← Outcome.ofExcept
    ((pieces field).mapM fun piece => base.decode .label numLabels piece piece)
  return scatter numLabels (.int 0) (indices.map fun index => (index, .int 1))

end SvmLight.Labels
