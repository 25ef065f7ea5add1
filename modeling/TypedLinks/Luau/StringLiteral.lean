import TypedLinks.Luau.Lexeme
import TypedLinks.Text.Blank
import TypedLinks.Text.Digit

/-!
# String literals

The text that a string literal stands for. A quoted literal is read item by item: an item is a
character or an escape, and each item says how far it reaches and what it stands for. A long bracket
has no escapes. Any characters can be read, as if the first and the last were the delimiters.
-/

namespace TypedLinks.Luau.StringLiteral

/-- Why an escape stands for nothing. -/
inductive Fault where
  /-- Digits are missing, are no decimal digits, or name no code point. -/
  | badNumber
  /-- The number does not fit in 31 bits. -/
  | tooLarge
  deriving DecidableEq, Repr

/-- The value of a hexadecimal digit. -/
def hexValue (c : Char) : Nat :=
  if Lexeme.isDigit c then c.toNat - '0'.toNat
  else if 'a' ≤ c then c.toNat - 'a'.toNat + 10
  else c.toNat - 'A'.toNat + 10

/-- The number that hexadecimal digits write. -/
def hexNumber (cs : List Char) : Nat := cs.foldl (fun n c => 16 * n + hexValue c) 0

/-- The number that decimal digits write. -/
def decimalNumber (cs : List Char) : Nat := cs.foldl (fun n c => 10 * n + hexValue c) 0

/-- The code point of a number. -/
def codePoint (n : Nat) : Except Fault Text :=
  if h : n < 0x110000 then .ok [⟨n, h⟩]
  else if n < 0x80000000 then .error .badNumber
  else .error .tooLarge

/-- What a backslash and one other character stand for. -/
def simpleEscape (c : Char) : Char :=
  match c with
  | 'a' => '\x07'
  | 'b' => '\x08'
  | 'f' => '\x0c'
  | 'n' => '\n'
  | 'r' => '\r'
  | 't' => '\t'
  | 'v' => '\x0b'
  | c => c

/-- The escape of `c`, outside the escapes that have a number or skip blanks: a decimal digit of
another script is a number by itself. -/
def singleEscape (c : Char) : Except Fault Text :=
  let p := CodePoint.ofChar c
  match p.decimalValue? with
  | some n => codePoint n
  | none => if p.isOtherDigit then .error .badNumber else .ok [simpleEscape c]

/-- The number of characters after the `c` of an escape that belong to it, and its value. -/
def escape (c : Char) (cs : List Char) : Nat × Except Fault Text :=
  if c = 'z' then (Lexeme.run (CodePoint.isBlank ·) cs, .ok [])
  else if c = 'x' then
    match cs with
    | a :: b :: _ =>
      if Lexeme.isHexDigit a && Lexeme.isHexDigit b then (2, codePoint (hexNumber [a, b]))
      else (0, .error .badNumber)
    | _ => (0, .error .badNumber)
  else if c = 'u' then
    let digits := (cs.drop 1).takeWhile Lexeme.isHexDigit
    let closed := (cs.drop (digits.length + 1)).head? = some '\x7d'
    if cs.head? = some '\x7b' ∧ digits ≠ [] ∧ closed then
      (digits.length + 2, codePoint (hexNumber digits))
    else (0, .error .badNumber)
  else if Lexeme.isDigit c then
    let digits := (cs.take 2).takeWhile Lexeme.isDigit
    (digits.length, codePoint (decimalNumber (c :: digits)))
  else (0, singleEscape c)

/-- The item that starts with `c`: how many of the following characters belong to it, and what it
stands for. -/
def item (c : Char) (cs : List Char) : Nat × Except Fault Text :=
  match c, cs with
  | '\\', e :: cs => let (n, value) := escape e cs; (n + 1, value)
  | c, _ => (0, .ok [CodePoint.ofChar c])

/-- The text of the items of a literal; the first `pending` characters belong to an item that was
read. -/
def items : Nat → List Char → Except Fault Text
  | _, [] => .ok []
  | pending + 1, _ :: cs => items pending cs
  | 0, c :: cs => do
    let (n, value) := item c cs
    let first ← value
    let rest ← items n cs
    return first ++ rest

/-- What stands between delimiters of a width. -/
def inside (width : Nat) (cs : List Char) : List Char :=
  (cs.drop width).take (cs.length - 2 * width)

/-- The content of a long bracket, without the line end that may follow its opening. -/
def dropFirstLineEnd : List Char → List Char
  | '\r' :: '\n' :: cs => cs
  | '\n' :: cs => cs
  | cs => cs

/-- The text of a literal. -/
def decode (literal : List Char) : Except Fault Text :=
  match Lexeme.longLevel? literal with
  | some level => .ok (Text.ofChars (dropFirstLineEnd (inside (level + 2) literal)))
  | none => items 0 (inside 1 literal)

end TypedLinks.Luau.StringLiteral
