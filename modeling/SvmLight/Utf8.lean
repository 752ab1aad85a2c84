import SvmLight.Text

/-!
# UTF-8

Octets are decoded one at a time. A sequence starts with a lead octet, which fixes how many
octets follow and the range of the first of them (Table 3-7 of the Unicode standard); those after
it are continuation octets.

A text that cannot be decoded has a **defect** at the start of its first bad sequence: the
sequence is **invalid** — its first `length` octets could begin a character, the next one cannot
go on with it, or no character begins with its lead octet — or the octets end inside it and it is
**incomplete**.
-/

namespace SvmLight.Utf8

/-- Why octets are not UTF-8. -/
inductive Defect where
  /-- `length` octets that begin no character stand at `start` -/
  | invalid (length start : Nat)
  /-- the octets end inside the sequence that begins at `start` -/
  | incomplete (start : Nat)
deriving DecidableEq

/-! ### One octet -/

/-- Where decoding stands inside a sequence. -/
structure Inside where
  /-- the least octet that may follow -/
  low : Nat
  /-- the greatest octet that may follow -/
  high : Nat
  /-- how many octets follow that one -/
  more : Nat
  /-- the number that the octets so far spell -/
  bits : Nat
  /-- how many octets have been read -/
  seen : Nat

/-- What an octet does. -/
inductive Step where
  /-- it ends a character -/
  | char (c : Char)
  /-- it is part of a sequence that goes on -/
  | wait (inside : Inside)
  /-- it cannot stand here -/
  | bad

/-- What an octet does at the start of a sequence. -/
def lead (octet : Nat) : Step :=
  if octet < 0x80 then .char (Char.ofNat octet)
  else if octet < 0xC2 then .bad
  else if octet < 0xE0 then .wait ⟨0x80, 0xBF, 0, octet - 0xC0, 1⟩
  else if octet = 0xE0 then .wait ⟨0xA0, 0xBF, 1, 0x0, 1⟩
  else if octet = 0xED then .wait ⟨0x80, 0x9F, 1, 0xD, 1⟩
  else if octet < 0xF0 then .wait ⟨0x80, 0xBF, 1, octet - 0xE0, 1⟩
  else if octet = 0xF0 then .wait ⟨0x90, 0xBF, 2, 0x0, 1⟩
  else if octet < 0xF4 then .wait ⟨0x80, 0xBF, 2, octet - 0xF0, 1⟩
  else if octet = 0xF4 then .wait ⟨0x80, 0x8F, 2, 0x4, 1⟩
  else .bad

/-- What an octet does inside a sequence. -/
def Inside.next (i : Inside) (octet : Nat) : Step :=
  if i.low ≤ octet ∧ octet ≤ i.high then
    let bits := i.bits * 0x40 + (octet - 0x80)
    match i.more with
    | 0 => .char (Char.ofNat bits)
    | more + 1 => .wait ⟨0x80, 0xBF, more, bits, i.seen + 1⟩
  else .bad

/-! ### Many octets -/

/-- Decodes octets; `start` is where the current sequence begins, `state` is where decoding stands
inside it, and `done` holds the characters so far, the last one first. -/
def decodeFrom (start : Nat) (state : Option Inside) (done : Text) :
    List UInt8 → Except Defect Text
  | [] =>
    match state with
    | none => .ok done.reverse
    | some _ => .error (.incomplete start)
  | octet :: octets =>
    let seen := (state.map Inside.seen).getD 0
    match (state.map Inside.next).getD lead octet.toNat with
    | .char c => decodeFrom (start + (seen + 1)) none (c :: done) octets
    | .wait inside => decodeFrom start (some inside) done octets
    | .bad => .error (.invalid (max 1 seen) start)

/-- The text that the octets encode, or their first defect. -/
def decode (octets : List UInt8) : Except Defect Text := decodeFrom 0 none [] octets

end SvmLight.Utf8
