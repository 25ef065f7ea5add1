/-!
# Places in a source

A position is an offset together with the line and column that belong to it. Only a line feed ends
a line. Offsets count characters from 0, lines and columns from 1.
-/

namespace TypedLinks.Luau

/-- A place between two characters of a source. -/
structure Position where
  offset : Nat
  line : Nat
  column : Nat
  deriving DecidableEq, Repr

namespace Position

/-- The start of a source. -/
def start : Position := ⟨0, 1, 1⟩

/-- The position after a character. -/
def next (p : Position) (c : Char) : Position :=
  if c = '\n' then ⟨p.offset + 1, p.line + 1, 1⟩ else ⟨p.offset + 1, p.line, p.column + 1⟩

/-- The position after several characters. -/
def advance (p : Position) (cs : List Char) : Position := cs.foldl next p

/-- The offset behind the last line feed of a text; 0 if there is none. -/
def lineStart (text : List Char) : Nat := text.length - text.reverse.idxOf '\n'

/-- The position at the end of a source, from its line feeds. -/
def endOf (source : List Char) : Position :=
  ⟨source.length, source.count '\n' + 1, source.length - lineStart source + 1⟩

@[simp] theorem advance_nil (p : Position) : p.advance [] = p := rfl

@[simp] theorem advance_cons (p : Position) (c : Char) (cs : List Char) :
    p.advance (c :: cs) = (p.next c).advance cs := rfl

theorem advance_append (p : Position) (cs ds : List Char) :
    p.advance (cs ++ ds) = (p.advance cs).advance ds := by
  simp [advance, List.foldl_append]

theorem offset_next (p : Position) (c : Char) : (p.next c).offset = p.offset + 1 := by
  unfold next; split <;> rfl

theorem offset_advance (p : Position) (cs : List Char) :
    (p.advance cs).offset = p.offset + cs.length := by
  induction cs generalizing p with
  | nil => rfl
  | cons c cs ih => rw [advance_cons, ih, offset_next, List.length_cons]; omega

end Position

/-- The part of a source between two positions. -/
structure Span where
  start : Position
  stop : Position
  deriving DecidableEq, Repr

namespace Span

/-- The characters of a source that a span covers. -/
def text (s : Span) (source : List Char) : List Char :=
  (source.drop s.start.offset).take (s.stop.offset - s.start.offset)

/-- From the start of one span to the end of another. -/
def through (a b : Span) : Span := ⟨a.start, b.stop⟩

end Span

end TypedLinks.Luau
