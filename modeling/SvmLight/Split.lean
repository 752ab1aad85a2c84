import SvmLight.Double.Rounding

/-!
# Holding out

Some records can be held out to validate what is learnt from the others. They are taken from the
front, so validation records followed by training records are the records again.

How many there are is a share of the whole: `heldOut` rounds the product of both to a double and
drops its fraction.
-/

namespace SvmLight

/-- Elements for training and elements for validation. -/
structure Split (α : Type) where
  /-- to learn from -/
  training : List α
  /-- held out -/
  validation : List α
deriving DecidableEq

namespace Split

variable {α : Type}

/-- How many of `total` elements make up a share. A share below zero counts as zero, and one above
one as one; a share that is no number makes up nothing. -/
def heldOut (total : Nat) (share : Double) : Nat :=
  ((Double.ofNat total).mul (.clamp .zero .one share)).truncate

/-- Holds a share of the elements out for validation, from the front. -/
def ofShare (share : Double) (elements : List α) : Split α :=
  let count := heldOut elements.length share
  ⟨elements.drop count, elements.take count⟩

theorem validation_append_training (share : Double) (elements : List α) :
    (ofShare share elements).validation ++ (ofShare share elements).training = elements :=
  List.take_append_drop _ _

end Split

end SvmLight
