import TypedLinks.Text.Printable

/-!
# Quoted text

How a text is shown inside a message: between quotes, with every character that could not be read
back or seen written as an escape.
-/

namespace TypedLinks

/-- A code point as it stands between the quotes `quote`: quotes and backslashes are escaped, tab
and line ends have short escapes, and an unprintable character is written by its number. -/
def CodePoint.quoted (quote : Char) (p : CodePoint) : Text :=
  if p.val = quote.toNat ∨ p.val = 0x5C then [CodePoint.ofChar '\\', p]
  else if p.val = 9 then "\\t"
  else if p.val = 10 then "\\n"
  else if p.val = 13 then "\\r"
  else if p.isPrintable then [p]
  else if p.val ≤ 0xFF then Text.ofString "\\x" ++ Text.hexadecimal 2 p.val
  else if p.val ≤ 0xFFFF then Text.ofString "\\u" ++ Text.hexadecimal 4 p.val
  else Text.ofString "\\U" ++ Text.hexadecimal 8 p.val

namespace Text

/-- Single quotes are used unless the text holds a single quote and no double quote. -/
def quoteMark (t : Text) : Char :=
  if t.contains (CodePoint.ofChar '\'') && !t.contains (CodePoint.ofChar '"') then '"' else '\''

/-- A text between quotes. -/
def quoted (t : Text) : Text :=
  let q := t.quoteMark
  CodePoint.ofChar q :: t.flatMap (CodePoint.quoted q) ++ [CodePoint.ofChar q]

/-- A list of texts, each quoted, between brackets. -/
def quotedList (ts : List Text) : Text :=
  "[" ++ Text.join ", " (ts.map quoted) ++ "]"

end Text

end TypedLinks
