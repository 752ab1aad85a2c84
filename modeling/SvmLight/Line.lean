import SvmLight.Text

/-!
# Lines

A line of the format is a label field and feature tokens, separated by spaces and tabs. A hash
sign starts a comment that goes to the end of the line.

* `Line.isComment` — the line holds nothing but a comment;
* `Line.tokens` — what stands before the comment, blanks at both ends taken off, cut at spaces and
  tabs. Other blanks inside are part of a token.
-/

namespace SvmLight.Line

/-- Starts a comment. -/
def commentMark : Char := '#'

/-- Whether the first character that is not blank starts a comment. -/
def isComment (line : Text) : Bool := line.trimStart.head? == some commentMark

/-- Whether a character separates tokens. -/
def isSeparator (c : Char) : Bool := c == ' ' || c == '\t'

/-- The tokens of a line. -/
def tokens (line : Text) : List Text :=
  ((line.breakAt commentMark).1.trim.splitOnP isSeparator).filter (!·.isEmpty)

/-- The label field — empty if the line has no tokens — and the feature tokens. -/
def fields (line : Text) : Text × List Text :=
  match tokens line with
  | [] => ([], [])
  | labels :: features => (labels, features)

end SvmLight.Line
