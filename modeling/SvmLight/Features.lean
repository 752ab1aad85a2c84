import SvmLight.Outcome
import SvmLight.Settings
import SvmLight.Value

/-!
# Features

A feature token is `INDEX:VALUE`. The tokens of a line list the features that are not zero, in any
order, and each value is placed at its index; the last of several values for one index counts.

Tokens whose index part begins with `qid` tell which query a line belongs to. They are skipped,
whatever they hold.

All tokens are decoded before any value is placed, so the first bad token decides the error.
-/

namespace SvmLight

/-- The row of `size` entries that holds each given value at its index and `fill` elsewhere; the
last value at an index counts. -/
def scatter {α : Type} (size : Nat) (fill : α) (entries : List (Nat × α)) : List α :=
  (entries.foldl (fun row entry => row.setIfInBounds entry.1 entry.2)
    (Array.replicate size fill)).toList

/-- An index counted from zero; index zero has no such form where indices count from one. -/
def IndexBase.normalize? : IndexBase → Nat → Option Nat
  | .zero, n => some n
  | .one, 0 => none
  | .one, n + 1 => some n

/-- Decodes a numeral as an index below the bound, counted from zero. The token that it stands in
is reported if it is no numeral. -/
def IndexBase.decode (base : IndexBase) (kind : IndexKind) (bound : Nat) (token numeral : Text) :
    Except DecodeError Nat :=
  match Numeral.index? numeral with
  | none => .error (.malformedIndex kind token)
  | some n =>
    match base.normalize? n with
    | none => .error (.zeroIndex kind)
    | some index =>
      if index < bound then .ok index else .error (.indexOutOfRange kind index bound)

namespace Features

/-- Separates the index of a feature from its value. -/
def mark : Char := ':'

/-- Whether a token tells the query and not a feature. -/
def isQuery (token : Text) : Bool := ['q', 'i', 'd'].isPrefixOf (token.breakAt mark).1

/-- Decodes a feature token: the index first, then the value. -/
def entry (s : Settings) (token : Text) : Except DecodeError (Nat × Double) :=
  let (key, value?) := token.breakAt mark
  match s.indexBase.decode .feature s.numFeatures token key with
  | .error e => .error e
  | .ok index =>
    match value?.bind Double.ofText? with
    | some value => .ok (index, value)
    | none => .error (.malformedValue token)

/-- A double takes this many bytes. -/
def bytesPerFeature : Nat := 8

/-- Decodes feature tokens into a row with a value for every feature. -/
def decode (s : Settings) (tokens : List Text) : Outcome DecodeError (List Double) := do
  Outcome.reserve s.numFeatures bytesPerFeature
  let entries ← Outcome.ofExcept ((tokens.filter (!isQuery ·)).mapM (entry s))
  return scatter s.numFeatures .zero entries

end Features

end SvmLight
