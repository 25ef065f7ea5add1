import TypedLinks.Json.Value

/-!
# Reading JSON

A document is one value between white space. Besides the numbers of the JSON standard, the words
`NaN`, `Infinity` and `-Infinity` are read as numbers. A string may spell a lone surrogate; a high
and a low surrogate in a row make one code point. A fault is reported with its offset.
-/

namespace TypedLinks.Json

/-! ## Faults -/

/-- Why a text is no document. -/
inductive FaultKind where
  | byteOrderMark | expectedValue | expectedName | expectedColon | expectedComma
  | unterminatedString | controlCharacter | invalidEscape | invalidUnicodeEscape | extraData
  /-- An integer has more digits than are converted. -/
  | integerTooLong
  deriving DecidableEq, Repr

/-- A fault and the offset at which it is found. -/
structure Fault where
  kind : FaultKind
  offset : Nat
  deriving DecidableEq, Repr

/-- A fault in words. -/
def FaultKind.description : FaultKind → Text
  | byteOrderMark => "Unexpected UTF-8 BOM (decode using utf-8-sig)"
  | expectedValue => "Expecting value"
  | expectedName => "Expecting property name enclosed in double quotes"
  | expectedColon => "Expecting ':' delimiter"
  | expectedComma => "Expecting ',' delimiter"
  | unterminatedString => "Unterminated string starting at"
  | controlCharacter => "Invalid control character at"
  | invalidEscape => "Invalid \\escape"
  | invalidUnicodeEscape => "Invalid \\uXXXX escape"
  | extraData => "Extra data"
  | integerTooLong => "Exceeds the limit for integer string conversion"

/-- The line of a fault in its document, from 1. -/
def Fault.line (f : Fault) (document : List Char) : Nat :=
  (document.take f.offset).count '\n' + 1

/-- The column of a fault in its line, from 1. -/
def Fault.column (f : Fault) (document : List Char) : Nat :=
  ((document.take f.offset).reverse.takeWhile (· ≠ '\n')).length + 1

/-! ## Places -/

/-- The offset reached, and the characters from there on. -/
structure Cursor where
  offset : Nat
  rest : List Char

/-- White space in a document. -/
def isBlank (c : Char) : Bool := c = ' ' || c = '\t' || c = '\n' || c = '\r'

/-- The cursor after some characters. -/
def Cursor.skip (c : Cursor) (n : Nat) : Cursor := ⟨c.offset + n, c.rest.drop n⟩

/-- The cursor after white space. -/
def Cursor.skipBlank (c : Cursor) : Cursor := c.skip (c.rest.takeWhile isBlank).length

/-- A fault at the cursor. -/
def Cursor.fault {α : Type} (c : Cursor) (kind : FaultKind) : Except Fault α :=
  .error ⟨kind, c.offset⟩

/-! ## Strings -/

/-- The value of a hexadecimal digit. -/
def hexDigit? (c : Char) : Option Nat :=
  if '0' ≤ c ∧ c ≤ '9' then some (c.toNat - '0'.toNat)
  else if 'a' ≤ c ∧ c ≤ 'f' then some (c.toNat - 'a'.toNat + 10)
  else if 'A' ≤ c ∧ c ≤ 'F' then some (c.toNat - 'A'.toNat + 10)
  else none

/-- The number of four hexadecimal digits at the start. -/
def hexUnit? (cs : List Char) : Option Nat :=
  match cs with
  | a :: b :: c :: d :: _ => do
    let a ← hexDigit? a
    let b ← hexDigit? b
    let c ← hexDigit? c
    let d ← hexDigit? d
    return ((a * 16 + b) * 16 + c) * 16 + d
  | _ => none

/-- A number that is a code point, or U+FFFD. -/
def point (n : Nat) : CodePoint := if h : n < 0x110000 then ⟨n, h⟩ else 0xFFFD

/-- The character of a short escape. -/
def shortEscape? (c : Char) : Option Char :=
  match c with
  | '"' => some '"'
  | '\\' => some '\\'
  | '/' => some '/'
  | 'b' => some '\x08'
  | 'f' => some '\x0c'
  | 'n' => some '\n'
  | 'r' => some '\r'
  | 't' => some '\t'
  | _ => none

/-- A numeric escape whose letter stands at `offset`; `cs` follows the letter. Gives the code point
and the number of characters of `cs` that belong to it. At least one more character has to follow
the digits. A second numeric escape belongs to it if the two make a pair of surrogates. -/
def unicodeEscape (offset : Nat) (cs : List Char) : Except Fault (CodePoint × Nat) := do
  let unit (offset : Nat) (cs : List Char) : Except Fault Nat :=
    if cs.length ≤ 4 then .error ⟨.invalidUnicodeEscape, offset⟩
    else match hexUnit? cs with
      | some n => .ok n
      | none => .error ⟨.invalidUnicodeEscape, offset⟩
  let high ← unit offset cs
  let rest := cs.drop 4
  if 0xD800 ≤ high ∧ high ≤ 0xDBFF ∧ 7 ≤ rest.length ∧ rest.take 2 = ['\\', 'u'] then
    let low ← unit (offset + 6) (rest.drop 2)
    if 0xDC00 ≤ low ∧ low ≤ 0xDFFF then
      return (point (0x10000 + (high - 0xD800) * 0x400 + (low - 0xDC00)), 10)
    else return (point high, 4)
  else return (point high, 4)

/-- The escape after the backslash at `offset`: its code point, and how many of the following
characters belong to it. `start` is where the string starts. -/
def escape (start offset : Nat) : List Char → Except Fault (CodePoint × Nat)
  | [] => .error ⟨.unterminatedString, start⟩
  | 'u' :: cs => (fun (p, n) => (p, n + 1)) <$> unicodeEscape (offset + 1) cs
  | c :: _ =>
    match shortEscape? c with
    | some e => .ok (CodePoint.ofChar e, 1)
    | none => .error ⟨.invalidEscape, offset⟩

/-- The rest of a string that started at `start`, up to its closing quote. The first `pending`
characters belong to an escape that was read. -/
def stringRest (start : Nat) : Nat → Nat → List Char → Except Fault (Text × Cursor)
  | _, _, [] => .error ⟨.unterminatedString, start⟩
  | pending + 1, offset, _ :: cs => stringRest start pending (offset + 1) cs
  | 0, offset, c :: cs =>
    if c = '"' then .ok ([], ⟨offset + 1, cs⟩)
    else if c = '\\' then do
      let (p, n) ← escape start offset cs
      let (t, after) ← stringRest start n (offset + 1) cs
      return (p :: t, after)
    else if c.toNat < 0x20 then .error ⟨.controlCharacter, offset⟩
    else do
      let (t, after) ← stringRest start 0 (offset + 1) cs
      return (CodePoint.ofChar c :: t, after)

/-! ## Numbers -/

/-- A decimal digit. -/
def isDigit (c : Char) : Bool := '0' ≤ c && c ≤ '9'

/-- The number of digits at the start. -/
def digitRun (cs : List Char) : Nat := (cs.takeWhile isDigit).length

/-- The length of the digits of an integer: a zero alone, or digits that do not start with one. -/
def integerLength (cs : List Char) : Nat :=
  match cs with
  | '0' :: _ => 1
  | cs => digitRun cs

/-- The length of a fraction, with its point. -/
def fractionLength (cs : List Char) : Nat :=
  match cs with
  | '.' :: cs => if digitRun cs = 0 then 0 else 1 + digitRun cs
  | _ => 0

/-- The length of an exponent, with its letter and sign. -/
def exponentLength (cs : List Char) : Nat :=
  match cs with
  | e :: cs =>
    if e = 'e' ∨ e = 'E' then
      let sign := if cs.head? = some '+' ∨ cs.head? = some '-' then 1 else 0
      let digits := digitRun (cs.drop sign)
      if digits = 0 then 0 else 1 + sign + digits
    else 0
  | [] => 0

/-- The most digits that an integer may have. -/
def maxIntegerDigits : Nat := 4300

/-- The number at the cursor. -/
def number (c : Cursor) : Except Fault (Json × Cursor) :=
  let sign := if c.rest.head? = some '-' then 1 else 0
  let digits := integerLength (c.rest.drop sign)
  if digits = 0 then c.fault .expectedValue
  else
    let whole := sign + digits
    let fraction := fractionLength (c.rest.drop whole)
    let exponent := exponentLength (c.rest.drop (whole + fraction))
    if fraction + exponent = 0 then
      if maxIntegerDigits < digits then c.fault .integerTooLong
      else
        let n := ((c.rest.drop sign).take digits).foldl
          (fun n d => 10 * n + (d.toNat - '0'.toNat)) 0
        .ok (.integer (if sign = 1 then -(n : Int) else n), c.skip whole)
    else
      let length := whole + fraction + exponent
      .ok (.real (c.rest.take length), c.skip length)

/-! ## Values -/

/-- The words that stand for values. -/
def words : List (List Char × Json) :=
  [("null".toList, .null), ("true".toList, .bool true), ("false".toList, .bool false),
    ("NaN".toList, .real "NaN".toList), ("Infinity".toList, .real "Infinity".toList),
    ("-Infinity".toList, .real "-Infinity".toList)]

/-- A value that is one word or a number. -/
def atom (c : Cursor) : Except Fault (Json × Cursor) :=
  match words.find? (·.1.isPrefixOf c.rest) with
  | some (word, value) => .ok (value, c.skip word.length)
  | none => number c

mutual

/-- The value at the cursor. -/
def value : Nat → Cursor → Except Fault (Json × Cursor)
  | 0, c => c.fault .expectedValue
  | fuel + 1, c =>
    match c.rest with
    | '"' :: cs => do
      let (t, after) ← stringRest c.offset 0 (c.offset + 1) cs
      return (.string t, after)
    | '[' :: _ =>
      let c := (c.skip 1).skipBlank
      if c.rest.head? = some ']' then .ok (.array [], c.skip 1)
      else do
        let (items, after) ← items fuel c
        return (.array items, after)
    | '\x7b' :: _ =>
      let c := (c.skip 1).skipBlank
      if c.rest.head? = some '\x7d' then .ok (.object [], c.skip 1)
      else do
        let (members, after) ← members fuel c
        return (.object members, after)
    | _ => atom c

/-- The items of an array from the cursor to its closing bracket. -/
def items : Nat → Cursor → Except Fault (List Json × Cursor)
  | 0, c => c.fault .expectedValue
  | fuel + 1, c => do
    let (item, after) ← value fuel c
    let c := after.skipBlank
    match c.rest with
    | ']' :: _ => return ([item], c.skip 1)
    | ',' :: _ =>
      let (others, after) ← items fuel (c.skip 1).skipBlank
      return (item :: others, after)
    | _ => c.fault .expectedComma

/-- The members of an object from the cursor to its closing brace. -/
def members : Nat → Cursor → Except Fault (List (Text × Json) × Cursor)
  | 0, c => c.fault .expectedName
  | fuel + 1, c =>
    match c.rest with
    | '"' :: cs => do
      let (name, after) ← stringRest c.offset 0 (c.offset + 1) cs
      let c := after.skipBlank
      match c.rest with
      | ':' :: _ =>
        let (item, after) ← value fuel (c.skip 1).skipBlank
        let c := after.skipBlank
        match c.rest with
        | '\x7d' :: _ => return ([(name, item)], c.skip 1)
        | ',' :: _ =>
          let (others, after) ← members fuel (c.skip 1).skipBlank
          return ((name, item) :: others, after)
        | _ => c.fault .expectedComma
      | _ => c.fault .expectedColon
    | _ => c.fault .expectedName

end

/-- The value of a document. Of two nested steps of the reader one takes a character, so twice the
length of the document bounds their number. -/
def read (document : List Char) : Except Fault Json :=
  if document.head? = some '\ufeff' then .error ⟨.byteOrderMark, 0⟩
  else do
    let (value, after) ← value (2 * document.length + 2) (Cursor.mk 0 document).skipBlank
    let c := after.skipBlank
    if c.rest.isEmpty then return value else c.fault .extraData

end TypedLinks.Json
