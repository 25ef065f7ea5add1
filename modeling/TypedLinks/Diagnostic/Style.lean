import TypedLinks.Text.Basic

/-!
# Styled text

Text in pieces, some of which are emphasised on a terminal. Painting with color wraps each
emphasised piece in escape sequences; painting without color drops the emphasis.
-/

namespace TypedLinks

/-- How a piece of text stands out. -/
inductive Emphasis where
  /-- The word that says that this is an error, and the carets under it. -/
  | alarm
  /-- A message. -/
  | strong
  /-- The frame of a snippet. -/
  | frame
  /-- The mark of a remark. -/
  | remark
  deriving DecidableEq, Repr

/-- The escape sequences that switch an emphasis on. -/
def Emphasis.codes : Emphasis → Text
  | alarm => "\x1b[1m\x1b[31m"
  | strong => "\x1b[1m"
  | frame => "\x1b[1m\x1b[34m"
  | remark => "\x1b[1m\x1b[36m"

/-- The escape sequence that ends an emphasis. -/
def Emphasis.reset : Text := "\x1b[0m"

/-- A piece of text with or without emphasis. -/
structure Piece where
  emphasis : Option Emphasis
  text : Text

namespace Piece

/-- A piece without emphasis. -/
def plain (text : Text) : Piece := ⟨none, text⟩

/-- A piece with an emphasis. -/
def styled (emphasis : Emphasis) (text : Text) : Piece := ⟨some emphasis, text⟩

/-- The text of a piece, with or without color. -/
def paint (color : Bool) (p : Piece) : Text :=
  match p.emphasis with
  | some e => if color then e.codes ++ p.text ++ Emphasis.reset else p.text
  | none => p.text

end Piece

/-- A line of styled text. -/
abbrev StyledLine := List Piece

/-- The text of lines, separated by line feeds. -/
def paintLines (color : Bool) (lines : List StyledLine) : Text :=
  Text.join "\n" (lines.map fun line => line.flatMap (Piece.paint color))

end TypedLinks
