import TypedLinks.Diagnostic.Problem
import TypedLinks.Luau.Construction
import TypedLinks.Luau.Machine
import TypedLinks.Text.Quoted

/-!
# Parsing a file

A source text either is a chunk, or has a syntax error with a place, or has a parse tree that no
chunk can be made of. The latter is no problem of the source's syntax, so it is kept apart.
-/

namespace TypedLinks.Luau

/-- Why a source is no chunk. -/
inductive ParseFailure where
  /-- The source has a syntax error. -/
  | problem (p : Problem)
  /-- The nodes of the source cannot be built. -/
  | unbuildable (fault : NodeFault)

/-- Whether a string literal of any kind starts here; it need not be closed. -/
def opensString : List Char → Bool
  | '"' :: _ | '\'' :: _ | '\x60' :: _ => true
  | cs => (Lexeme.longLevel? cs).isSome

/-- A syntax error in a file. -/
def syntaxProblem (file : Text) (source : List Char) (location : Location) (message : Text) :
    Problem :=
  { kind := .syntaxError, message, location := some { location with file }
    source := some (Text.ofChars source) }

/-- The problem of a syntax fault. Where a string literal starts, it is taken to be unterminated. -/
def SyntaxFault.problem (file : Text) (source : List Char) (fault : SyntaxFault) : Problem :=
  let problem := syntaxProblem file source
  let atString (p : Position) (message : Text) : Text :=
    if opensString (source.drop p.offset) then "unterminated string" else message
  match fault with
  | .unexpectedEnd =>
    let p := Position.endOf source
    problem (.ofSpan file ⟨p, p⟩) "unexpected end of file"
  | .unexpectedToken t =>
    problem (.ofSpan file t.span)
      (atString t.span.start ("unexpected '" ++ Text.ofChars t.text ++ "'"))
  | .unexpectedCharacter c p =>
    problem ⟨file, p.line, p.column, p.offset, p.offset + 1, 0, 0⟩
      (atString p ("unexpected character " ++ Text.quoted [CodePoint.ofChar c]))
  | .stuck => problem (.ofSpan file ⟨.start, .start⟩) "syntax error"

/-- The failure of a node fault: an expression that is no statement is an error of the source. -/
def NodeFault.failure (file : Text) (source : List Char) : NodeFault → ParseFailure
  | .notACall span =>
    .problem (syntaxProblem file source (.ofSpan file span)
      "syntax error: expression is not a statement")
  | fault => .unbuildable fault

/-- The chunk of a source text. -/
def parse (file : Text) (source : List Char) : Except ParseFailure Chunk :=
  match parseTree source with
  | .error fault => .error (.problem (fault.problem file source))
  | .ok tree => (Chunk.ofTree file source tree).mapError (NodeFault.failure file source)

end TypedLinks.Luau
