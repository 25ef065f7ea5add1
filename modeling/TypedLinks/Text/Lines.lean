import TypedLinks.Text.Basic

/-!
# Lines

Two ways to cut a text into lines. Positions count line feeds only, and so does a snippet; a
statement that is quoted in a message is cut at any character that ends a line in Unicode.
-/

namespace TypedLinks

/-- Whether a character ends a line in Unicode: the cursor controls from line feed to carriage
return, the three larger information separators, and the line and paragraph separators. -/
def isLineEnd (c : Char) : Bool :=
  let n := c.toNat
  decide ((10 ≤ n ∧ n ≤ 13) ∨ (28 ≤ n ∧ n ≤ 30) ∨ n = 0x85 ∨ n = 0x2028 ∨ n = 0x2029)

/-- The characters before the first line end. -/
def firstLine (cs : List Char) : List Char := cs.takeWhile fun c => !isLineEnd c

namespace Text

/-- The pieces of a text between its line feeds. -/
def lines (t : Text) : List Text := t.splitOn (CodePoint.ofChar '\n')

/-- The text without the carriage returns at its end. -/
def dropTrailingReturns (t : Text) : Text := (t.reverse.dropWhile (·.val = 13)).reverse

end Text

/-- The line separator of a source: a carriage return and a line feed if that pair occurs in it,
else a line feed alone. -/
def lineSeparator : List Char → List Char
  | '\r' :: '\n' :: _ => ['\r', '\n']
  | _ :: cs => lineSeparator cs
  | [] => ['\n']

end TypedLinks
