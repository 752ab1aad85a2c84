import SvmLight.Text

/-!
# Control characters

A terminal does not show everything that is written to it: a **control sequence** changes how it
shows the rest, and most control characters have no effect on text at all.
`Text.withoutControls` leaves what is there to be seen. Blank control characters — tab, newline,
form feed and carriage return — are kept.

A sequence begins with the escape character, and the character after it tells its form:

* a **control sequence** proper, after `[`, ends with a character from `@` to `~`;
* an **operating system command**, after `]`, ends with the bell character;
* a **device control string**, after `P`, has a header that ends with a character from `@` to `~`,
  and a body;
* the body of such a string, and any other string, after `X`, `^` or `_`, ends with the octet
  `0x9C`, wherever it stands in the form of a character in octets;
* everything else is over after one character, intermediate characters before it not counted.

Another escape character, or a cancelling one, ends every form, and a blank control character ends
every form that is no string.
-/

namespace SvmLight

/-- Where in a sequence a text stands. -/
inductive ControlState where
  /-- in none -/
  | outside
  /-- after an escape character -/
  | escape
  /-- after an escape character and intermediate characters -/
  | intermediate
  /-- in a control sequence proper -/
  | sequence
  /-- in an operating system command -/
  | command
  /-- at the header of a device control string -/
  | header
  /-- in the header, after a parameter -/
  | headerParameter
  /-- in the header, after an intermediate character -/
  | headerIntermediate
  /-- in a string that only its terminator ends -/
  | string
deriving DecidableEq

namespace ControlState

/-- Begins a sequence. -/
def escapeMark : Nat := 0x1B

/-- Whether a character ends whatever sequence it stands in. -/
def isCancel (n : Nat) : Bool := n == 0x18 || n == 0x1A

/-- Whether a character is a control character that shows as a blank. -/
def isBlankControl (n : Nat) : Bool := n == 0x09 || n == 0x0A || n == 0x0C || n == 0x0D

/-- Whether a character that is in no sequence is to be seen. -/
def isVisible (n : Nat) : Bool :=
  isBlankControl n || (0x20 ≤ n && n < 0x7F) || 0x80 ≤ n

/-- Whether the form of a character in octets holds the octet that ends strings. -/
def holdsTerminator (c : Char) : Bool := (String.utf8EncodeChar c).contains 0x9C

/-- Where the character after an escape character leads. -/
def afterEscape (n : Nat) : ControlState :=
  if 0x20 ≤ n && n ≤ 0x2F then .intermediate
  else if n == 0x5B then .sequence
  else if n == 0x5D then .command
  else if n == 0x50 then .header
  else if n == 0x58 || n == 0x5E || n == 0x5F then .string
  else if 0x30 ≤ n && n ≤ 0x7E then .outside
  else .escape

/-- Where a character leads from a state, if it neither begins a sequence nor ends all of them. -/
def advance (s : ControlState) (c : Char) : ControlState :=
  let n := c.toNat
  match s with
  | .outside => .outside
  | .escape => if isBlankControl n then .outside else afterEscape n
  | .intermediate =>
    if isBlankControl n || (0x30 ≤ n && n ≤ 0x7E) then .outside else .intermediate
  | .sequence => if isBlankControl n || (0x40 ≤ n && n ≤ 0x7E) then .outside else .sequence
  | .command => if n == 0x07 then .outside else .command
  | .header =>
    if 0x20 ≤ n && n ≤ 0x2F then .headerIntermediate
    else if 0x30 ≤ n && n ≤ 0x3F then .headerParameter
    else if 0x40 ≤ n && n ≤ 0x7E then .string
    else .header
  | .headerParameter =>
    if 0x20 ≤ n && n ≤ 0x2F then .headerIntermediate
    else if 0x3C ≤ n && n ≤ 0x7E then .string
    else .headerParameter
  | .headerIntermediate => if 0x30 ≤ n && n ≤ 0x7E then .string else .headerIntermediate
  | .string => if holdsTerminator c then .outside else .string

/-- Where a character leads from a state. -/
def step (s : ControlState) (c : Char) : ControlState :=
  if c.toNat == escapeMark then .escape
  else if isCancel c.toNat then .outside
  else s.advance c

/-- Whether a character is to be seen: outside of sequences if it is visible there, and in one that
is no string if it is a blank control character. -/
def shows (s : ControlState) (c : Char) : Bool :=
  match s with
  | .outside => isVisible c.toNat
  | .escape | .intermediate | .sequence => isBlankControl c.toNat
  | _ => false

end ControlState

namespace Text

/-- What is to be seen of a text that begins in a state. -/
def visibleFrom (s : ControlState) : Text → Text
  | [] => []
  | c :: t =>
    if s.shows c then c :: visibleFrom (s.step c) t else visibleFrom (s.step c) t

/-- The text without control sequences and without control characters that are not blank. -/
def withoutControls (t : Text) : Text := visibleFrom .outside t

end Text

end SvmLight
