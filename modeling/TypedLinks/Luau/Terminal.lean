/-!
# Terminals of Luau

The kinds of token. Most terminals have one spelling; the others (names, numbers, strings,
interpolated strings and compound assignment operators) are classes of lexemes.
-/

namespace TypedLinks.Luau

/-- A kind of token. -/
inductive Terminal where
  | kwAnd | kwBreak | kwContinue | kwDo | kwElse | kwElseif | kwEnd | kwExport | kwFalse | kwFor
  | kwFunction | kwIf | kwIn | kwLocal | kwNil | kwNot | kwOr | kwRead | kwRepeat | kwReturn | kwThen
  | kwTrue | kwType | kwTypeof | kwUntil | kwWhile | kwWrite
  | hash | percent | ampersand | leftParen | rightParen | star | plus | comma | minus | arrow | dot
  | concat | ellipsis | slash | doubleSlash | colon | doubleColon | semicolon | less | doubleLess
  | lessEqual | equals | doubleEquals | greater | greaterEqual | question | atSign | leftBracket
  | rightBracket | caret | leftBrace | bar | rightBrace | notEqual
  | compound | interpolated | name | number | quoted
  deriving DecidableEq, Repr

namespace Terminal

/-- The one spelling of a keyword or a symbol. -/
def spelling? : Terminal → Option (List Char)
  | kwAnd => some "and".toList
  | kwBreak => some "break".toList
  | kwContinue => some "continue".toList
  | kwDo => some "do".toList
  | kwElse => some "else".toList
  | kwElseif => some "elseif".toList
  | kwEnd => some "end".toList
  | kwExport => some "export".toList
  | kwFalse => some "false".toList
  | kwFor => some "for".toList
  | kwFunction => some "function".toList
  | kwIf => some "if".toList
  | kwIn => some "in".toList
  | kwLocal => some "local".toList
  | kwNil => some "nil".toList
  | kwNot => some "not".toList
  | kwOr => some "or".toList
  | kwRead => some "read".toList
  | kwRepeat => some "repeat".toList
  | kwReturn => some "return".toList
  | kwThen => some "then".toList
  | kwTrue => some "true".toList
  | kwType => some "type".toList
  | kwTypeof => some "typeof".toList
  | kwUntil => some "until".toList
  | kwWhile => some "while".toList
  | kwWrite => some "write".toList
  | hash => some "#".toList
  | percent => some "%".toList
  | ampersand => some "&".toList
  | leftParen => some "(".toList
  | rightParen => some ")".toList
  | star => some "*".toList
  | plus => some "+".toList
  | comma => some ",".toList
  | minus => some "-".toList
  | arrow => some "->".toList
  | dot => some ".".toList
  | concat => some "..".toList
  | ellipsis => some "...".toList
  | slash => some "/".toList
  | doubleSlash => some "//".toList
  | colon => some ":".toList
  | doubleColon => some "::".toList
  | semicolon => some ";".toList
  | less => some "<".toList
  | doubleLess => some "<<".toList
  | lessEqual => some "<=".toList
  | equals => some "=".toList
  | doubleEquals => some "==".toList
  | greater => some ">".toList
  | greaterEqual => some ">=".toList
  | question => some "?".toList
  | atSign => some "@".toList
  | leftBracket => some "[".toList
  | rightBracket => some "]".toList
  | caret => some "^".toList
  | leftBrace => some "\x7b".toList
  | bar => some "|".toList
  | rightBrace => some "\x7d".toList
  | notEqual => some "~=".toList
  | compound | interpolated | name | number | quoted => none

/-- Every terminal; those with a spelling come first. -/
def all : List Terminal :=
  [kwAnd, kwBreak, kwContinue, kwDo, kwElse, kwElseif, kwEnd, kwExport, kwFalse, kwFor, kwFunction,
    kwIf, kwIn, kwLocal, kwNil, kwNot, kwOr, kwRead, kwRepeat, kwReturn, kwThen, kwTrue, kwType,
    kwTypeof, kwUntil, kwWhile, kwWrite, hash, percent, ampersand, leftParen, rightParen, star, plus,
    comma, minus, arrow, dot, concat, ellipsis, slash, doubleSlash, colon, doubleColon, semicolon,
    less, doubleLess, lessEqual, equals, doubleEquals, greater, greaterEqual, question, atSign,
    leftBracket, rightBracket, caret, leftBrace, bar, rightBrace, notEqual, compound, interpolated,
    name, number, quoted]

theorem mem_all (t : Terminal) : t ∈ all := by cases t <;> decide

/-- The place of a terminal in `all`. -/
def index (t : Terminal) : Nat := t.ctorIdx

/-- Whether a token of this kind adds a part to the construct it stands in: its text matters, or
the construct has to know that it is there. -/
def isContent : Terminal → Bool
  | kwContinue | kwExport | kwRead | kwType | kwWrite => true
  | compound | interpolated | name | number | quoted => true
  | _ => false

end Terminal

end TypedLinks.Luau
