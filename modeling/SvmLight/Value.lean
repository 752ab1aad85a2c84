import SvmLight.Double.Shortest

/-!
# Values and records

A **value** keeps whole numbers and floating point numbers apart, as they were written. A
**record** is a dense row: all feature values, zeros included, and the labels of the line.
-/

namespace SvmLight

/-- A number as it was written: whole, or floating point. -/
inductive Value where
  /-- a signed 64-bit whole number -/
  | int (n : Int64)
  /-- a floating point number -/
  | float (x : Double)
deriving DecidableEq

namespace Value

/-- The value as a double; a whole number is rounded to the nearest. -/
def toDouble : Value → Double
  | .int n => .ofInt n.toInt
  | .float x => x

/-- The text of a value. -/
def text : Value → Text
  | .int n => Numeral.integer n.toInt
  | .float x => x.text

end Value

/-- A dense row of feature values, followed by its labels. -/
structure Record where
  /-- one value for each feature -/
  features : List Double
  /-- empty where labels are not kept -/
  labels : List Value
deriving DecidableEq

namespace Record

/-- All values of a record: the features first, then the labels. -/
def values (r : Record) : List Value := r.features.map .float ++ r.labels

/-- How many values a record has. -/
def size (r : Record) : Nat := r.features.length + r.labels.length

/-- Whether a record has no values. -/
def isEmpty (r : Record) : Bool := r.size == 0

/-- The values of a record, joined by commas. -/
def text (r : Record) : Text := Text.join ',' (r.values.map Value.text)

end Record

end SvmLight
