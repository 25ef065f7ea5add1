import TypedLinks.Luau.Lexeme
import TypedLinks.Luau.Position

/-!
# Tokens

Reading one token. Which terminals are looked for depends on what the parser accepts, so `scan` is
told the accepted ones. Of the lexemes that start at a place the longest counts; a keyword goes
before a name of the same length. So a word is a keyword where the parser accepts the keyword, and a
name elsewhere.
-/

namespace TypedLinks.Luau

/-- A token: a lexeme with its place. -/
structure Token where
  terminal : Terminal
  text : List Char
  span : Span
  deriving DecidableEq, Repr

/-- White space or a comment at the start of the characters: its length, or 0. -/
def triviaLength (cs : List Char) : Nat :=
  (Lexeme.comment? cs).getD ((Lexeme.space? cs).getD 0)

/-- Passes over white space and comments; the first `pending` characters are known to belong to
them. -/
def skipTrivia : Nat → Position → List Char → Position × List Char
  | _, p, [] => (p, [])
  | pending + 1, p, c :: cs => skipTrivia pending (p.next c) cs
  | 0, p, c :: cs =>
    match triviaLength (c :: cs) with
    | 0 => (p, c :: cs)
    | n + 1 => skipTrivia n (p.next c) cs

/-- The lexemes that start here, with their lengths. -/
def candidates (accepted : Terminal → Bool) (cs : List Char) : List (Terminal × Nat) :=
  (Terminal.all.filterMap fun t => (t, ·) <$> t.lexeme? cs).filter (accepted ·.1)

/-- The longest lexeme of a list, the first of several. -/
def longest : List (Terminal × Nat) → Option (Terminal × Nat)
  | [] => none
  | c :: cs =>
    match longest cs with
    | none => some c
    | some d => if c.2 < d.2 then some d else some c

/-- The accepted token that starts here, and the characters after it. -/
def scan (accepted : Terminal → Bool) (p : Position) (cs : List Char) :
    Option (Token × List Char) :=
  (longest (candidates accepted cs)).map fun (t, n) =>
    (⟨t, cs.take n, ⟨p, p.advance (cs.take n)⟩⟩, cs.drop n)

end TypedLinks.Luau
