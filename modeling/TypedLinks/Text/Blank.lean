import TypedLinks.Text.Basic

/-!
# Blank characters

The characters that count as white space when a text is trimmed or a string literal skips blanks:
the separators of Unicode, the controls that move the cursor, and the four information separators.
-/

namespace TypedLinks

/-- White space: U+0009 to U+000D, U+001C to U+0020, U+0085 and the Unicode separators. -/
def CodePoint.isBlank (p : CodePoint) : Bool :=
  let n := p.val
  decide ((9 ≤ n ∧ n ≤ 13) ∨ (28 ≤ n ∧ n ≤ 32) ∨ n = 0x85 ∨ n = 0xA0 ∨ n = 0x1680 ∨
    (0x2000 ≤ n ∧ n ≤ 0x200A) ∨ n = 0x2028 ∨ n = 0x2029 ∨ n = 0x202F ∨ n = 0x205F ∨ n = 0x3000)

namespace Text

/-- The text without the blanks at its start. -/
def trimStart (t : Text) : Text := t.dropWhile CodePoint.isBlank

/-- The text without the blanks at its end. -/
def trimEnd (t : Text) : Text := (t.reverse.dropWhile CodePoint.isBlank).reverse

/-- The text without the blanks at its start and at its end. -/
def trim (t : Text) : Text := t.trimStart.trimEnd

end Text

end TypedLinks
