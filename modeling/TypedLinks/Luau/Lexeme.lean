import TypedLinks.Luau.Terminal

/-!
# Lexemes

How far a lexeme of each kind reaches. Every function here looks at the characters from a place on
and gives the length of the lexeme that starts there, if one does. A lexeme is never empty.
-/

namespace TypedLinks.Luau.Lexeme

/-! ## Character classes -/

/-- A character that may start a name. -/
def isNameStart (c : Char) : Bool :=
  ('a' ≤ c && c ≤ 'z') || ('A' ≤ c && c ≤ 'Z') || c = '_'

/-- A decimal digit. -/
def isDigit (c : Char) : Bool := '0' ≤ c && c ≤ '9'

/-- A character inside a name. -/
def isNamePart (c : Char) : Bool := isNameStart c || isDigit c

/-- A hexadecimal digit. -/
def isHexDigit (c : Char) : Bool :=
  isDigit c || ('a' ≤ c && c ≤ 'f') || ('A' ≤ c && c ≤ 'F')

/-- A character between tokens. -/
def isSpace (c : Char) : Bool :=
  c = ' ' || c = '\t' || c = '\r' || c = '\n' || c = '\x0c' || c = '\x0b'

/-- The number of characters at the start that are of a class. -/
def run (p : Char → Bool) (cs : List Char) : Nat := (cs.takeWhile p).length

/-! ## Strings and comments -/

/-- The characters up to and including the quote that closes a string. A backslash takes the next
character with it; a bare line feed leaves the string open. -/
def closeQuote (quote : Char) : List Char → Option Nat
  | [] => none
  | ['\\'] => none
  | '\\' :: _ :: cs => (· + 2) <$> closeQuote quote cs
  | c :: cs =>
    if c = quote then some 1
    else if c = '\n' then none
    else (· + 1) <$> closeQuote quote cs

/-- The level of a long bracket that opens here: the number of equals signs between its brackets. -/
def longLevel? : List Char → Option Nat
  | '[' :: cs =>
    let level := run (· = '=') cs
    if (cs.drop level).head? = some '[' then some level else none
  | _ => none

/-- The closing long bracket of a level. -/
def closer (level : Nat) : List Char := ']' :: (List.replicate level '=' ++ [']'])

/-- The characters up to and including the first closing bracket of a level. -/
def closeLong (level : Nat) : List Char → Option Nat
  | [] => none
  | c :: cs =>
    if (closer level).isPrefixOf (c :: cs) then some (level + 2)
    else (· + 1) <$> closeLong level cs

/-- A long bracket, from its opening to the closing bracket of its level. -/
def longBracket? (cs : List Char) : Option Nat := do
  let level ← longLevel? cs
  (level + 2 + ·) <$> closeLong level (cs.drop (level + 2))

/-- A string: quoted, or in long brackets. -/
def string? : List Char → Option Nat
  | '"' :: cs => (· + 1) <$> closeQuote '"' cs
  | '\'' :: cs => (· + 1) <$> closeQuote '\'' cs
  | cs => longBracket? cs

/-- A comment: two minus signs, then a closed long bracket or the rest of the line. -/
def comment? : List Char → Option Nat
  | '-' :: '-' :: cs => some (2 + (longBracket? cs).getD (run (· ≠ '\n') cs))
  | _ => none

/-- A run of white space. -/
def space? (cs : List Char) : Option Nat :=
  let n := run isSpace cs
  if n = 0 then none else some n

/-! ## Interpolated strings -/

/-- Where the reader of an interpolated string stands. -/
inductive Mode where
  /-- In the text of an interpolated string; an inner one stands inside an interpolation. -/
  | text (inner : Bool)
  /-- Between braces, where strings may be nested, and further braces or interpolated strings if
  the flags allow them. -/
  | braces (allowBraces allowStrings : Bool)
  /-- Between quotes. -/
  | quoted (quote : Char)

/-- The characters that close all the open modes, innermost first. Interpolations hold tables,
strings and interpolated strings, nested two levels deep. -/
def closeModes : List Mode → List Char → Option Nat
  | [], _ => some 0
  | _ :: _, [] => none
  | .text inner :: up, c :: cs =>
    match c, cs with
    | '\\', _ :: cs => (· + 2) <$> closeModes (.text inner :: up) cs
    | '\\', [] => none
    | '\x60', cs => (· + 1) <$> closeModes up cs
    | '\x7b', cs => (· + 1) <$> closeModes (.braces true (!inner) :: .text inner :: up) cs
    | _, cs => (· + 1) <$> closeModes (.text inner :: up) cs
  | .quoted quote :: up, c :: cs =>
    match c, cs with
    | '\\', _ :: cs => (· + 2) <$> closeModes (.quoted quote :: up) cs
    | '\\', [] => none
    | '\n', _ => none
    | c, cs =>
      if c = quote then (· + 1) <$> closeModes up cs
      else (· + 1) <$> closeModes (.quoted quote :: up) cs
  | .braces allowBraces allowStrings :: up, c :: cs =>
    match c with
    | '\x7d' => (· + 1) <$> closeModes up cs
    | '\x7b' =>
      if allowBraces then
        (· + 1) <$> closeModes (.braces false false :: .braces allowBraces allowStrings :: up) cs
      else none
    | '\x60' =>
      if allowStrings then
        (· + 1) <$> closeModes (.text true :: .braces allowBraces allowStrings :: up) cs
      else none
    | '"' => (· + 1) <$> closeModes (.quoted '"' :: .braces allowBraces allowStrings :: up) cs
    | '\'' => (· + 1) <$> closeModes (.quoted '\'' :: .braces allowBraces allowStrings :: up) cs
    | _ => (· + 1) <$> closeModes (.braces allowBraces allowStrings :: up) cs

/-- An interpolated string, between backquotes. -/
def interpolated? : List Char → Option Nat
  | '\x60' :: cs => (· + 1) <$> closeModes [.text false] cs
  | _ => none

/-! ## Names and numbers -/

/-- A name. -/
def name? : List Char → Option Nat
  | c :: cs => if isNameStart c then some (1 + run isNamePart cs) else none
  | [] => none

/-- A digit or an underscore, which may stand between digits. -/
def isDigitOrUnderscore (c : Char) : Bool := isDigit c || c = '_'

/-- A number with a base: `digits` of a class, at least one, after a zero and a base letter. -/
def based (digits : Char → Bool) (cs : List Char) : Option Nat :=
  let n := run digits cs
  if n = 0 then none else some (2 + n)

/-- The digits before an exponent: a whole number with or without a fraction, or a fraction. -/
def mantissa? : List Char → Option Nat
  | '.' :: d :: cs => if isDigit d then some (2 + run isDigitOrUnderscore cs) else none
  | d :: cs =>
    if isDigit d then
      let whole := 1 + run isDigitOrUnderscore cs
      match cs.drop (whole - 1) with
      | '.' :: rest => some (whole + 1 + run isDigitOrUnderscore rest)
      | _ => some whole
    else none
  | [] => none

/-- The exponent of a number, if there is one with a digit. -/
def exponent : List Char → Nat
  | e :: cs =>
    if e = 'e' || e = 'E' then
      let sign := match cs with
        | c :: _ => if c = '+' || c = '-' then 1 else 0
        | [] => 0
      match cs.drop sign with
      | d :: rest => if isDigit d then 2 + sign + run isDigitOrUnderscore rest else 0
      | [] => 0
    else 0
  | [] => 0

/-- A decimal number. -/
def decimal? (cs : List Char) : Option Nat := do
  let n ← mantissa? cs
  return n + exponent (cs.drop n)

/-- A number: hexadecimal, binary or decimal. -/
def number? : List Char → Option Nat
  | '0' :: b :: cs =>
    let prefixed :=
      if b = 'x' || b = 'X' then based (fun c => isHexDigit c || c = '_') cs
      else if b = 'b' || b = 'B' then based (fun c => c = '0' || c = '1' || c = '_') cs
      else none
    prefixed.or (decimal? ('0' :: b :: cs))
  | cs => decimal? cs

/-! ## Symbols -/

/-- The operators that assign to their left operand, the longer ones first. -/
def compoundOperators : List (List Char) :=
  ["//=", "..=", "+=", "-=", "*=", "/=", "%=", "^="].map String.toList

/-- The length of the first spelling that stands here. -/
def spelled? (spellings : List (List Char)) (cs : List Char) : Option Nat :=
  (spellings.find? (·.isPrefixOf cs)).map List.length

end Lexeme

open Lexeme in
/-- The length of the lexeme of a terminal that starts here. -/
def Terminal.lexeme? (t : Terminal) (cs : List Char) : Option Nat :=
  match t with
  | .name => name? cs
  | .number => number? cs
  | .quoted => string? cs
  | .interpolated => interpolated? cs
  | .compound => spelled? compoundOperators cs
  | t => t.spelling?.bind fun s => spelled? [s] cs

end TypedLinks.Luau
