/-!
# Text

Text is a list of characters. The format needs few operations on it:

* **blank characters** — `isBlank` is Unicode's White_Space property, the blanks that `trim`
  takes off both ends;
* **breaking** — `breakAt` cuts a text at the first occurrence of a character;
* **lines** — `lines` cuts a block of text at its newlines, as a text editor shows it.

Splitting at every occurrence is `List.splitOn`.
-/

namespace SvmLight

/-- Text, as the list of its characters. -/
abbrev Text := List Char

namespace Text

/-! ### Blank characters -/

/-- The characters with Unicode's White_Space property. -/
def isBlank (c : Char) : Bool :=
  let n := c.toNat
  (0x09 ≤ n && n ≤ 0x0D) || n == 0x20 || n == 0x85 || n == 0xA0 || n == 0x1680
    || (0x2000 ≤ n && n ≤ 0x200A) || n == 0x2028 || n == 0x2029 || n == 0x202F
    || n == 0x205F || n == 0x3000

/-- Drops the characters at the end that satisfy `p`. -/
def dropEndWhile (p : Char → Bool) (t : Text) : Text :=
  (t.reverse.dropWhile p).reverse

/-- Drops the blanks in front. -/
def trimStart (t : Text) : Text := t.dropWhile isBlank

/-- Drops the blanks at the end. -/
def trimEnd (t : Text) : Text := dropEndWhile isBlank t

/-- Drops the blanks at both ends. -/
def trim (t : Text) : Text := trimEnd (trimStart t)

/-! ### Breaking and joining -/

/-- What stands before the first `c`, and what follows it; the second part is `none` when `c`
does not occur. -/
def breakAt (c : Char) (t : Text) : Text × Option Text :=
  (t.takeWhile (· != c), (t.dropWhile (· != c)).tail?)

/-- Joins the pieces, with `c` between each two neighbours. -/
def join (c : Char) (pieces : List Text) : Text := [c].intercalate pieces

/-- Lower-cases the ASCII letters and leaves every other character as it is. -/
def lowerAscii (t : Text) : Text := t.map Char.toLower

/-! ### Lines -/

/-- Drops one carriage return at the end, if there is one. -/
def dropCarriageReturn (t : Text) : Text :=
  if t.getLast? = some '\r' then t.dropLast else t

/-- The lines of a block of text. Each newline ends a line, and a carriage return just before it
belongs to the line end; what follows the last newline is a line only if it is not empty. -/
def lines (t : Text) : List Text :=
  let pieces := t.splitOn '\n'
  pieces.dropLast.map dropCarriageReturn ++ pieces.getLast?.toList.filter (!·.isEmpty)

end Text

end SvmLight
