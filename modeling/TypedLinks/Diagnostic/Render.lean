import TypedLinks.Diagnostic.Problem
import TypedLinks.Diagnostic.Style
import TypedLinks.Text.Lines

/-!
# Rendering diagnostics

A diagnostic shows the message, the place, the line of the source with carets under the offending
part, and the remarks:

    error[E0102]: unsupported require expression `require("Promise")`
     --> Packages/Promise.lua:1:8
      |
    1 | return require("Promise")
      |        ^^^^^^^^^^^^^^^^^^ string paths cannot be resolved statically
      |
      = help: require the module through `script` or `game` instance paths

The snippet is left out where the source of the file is not known.
-/

namespace TypedLinks

/-- What is shown of a problem. -/
structure Diagnostic where
  code : Option Text
  message : Text
  location : Option Location
  help : Option Text
  note : Option Text
  label : Option Text
  deriving DecidableEq

/-- The diagnostic of a problem. -/
def Problem.diagnostic (p : Problem) : Diagnostic :=
  ⟨some p.kind.code, p.message, p.location, p.help, p.note, p.label⟩

/-- The source texts of files; of two texts for one file the first counts. -/
abbrev Sources := List (Text × Text)

namespace Diagnostic

/-- As many spaces as given. -/
def spaces (n : Nat) : Text := List.replicate n (CodePoint.ofChar ' ')

/-- A text that is there and not empty. -/
def nonempty? : Option Text → Option Text
  | some [] => none
  | t => t

/-- The line that names the problem, with its code if it has one. -/
def header (d : Diagnostic) : StyledLine :=
  let code := (nonempty? d.code).elim ([] : Text) ("[" ++ · ++ "]")
  [.styled .alarm ("error" ++ code), .styled .strong (": " ++ d.message)]

/-- A line with a remark. -/
def remark (gutter : Nat) (title text : Text) : StyledLine :=
  [.styled .remark (spaces (gutter + 1) ++ "= "), .styled .strong (title ++ ": "), .plain text]

/-- The help and the note, set off from a snippet by an empty line. -/
def remarks (d : Diagnostic) (gutter : Nat) : List StyledLine :=
  let help := (nonempty? d.help).map (remark gutter "help")
  let note := (nonempty? d.note).map (remark gutter "note")
  match help.toList ++ note.toList with
  | [] => []
  | lines =>
    if d.location.isSome then [.styled .frame (spaces (gutter + 1) ++ "|")] :: lines else lines

/-- The characters at which an unknown extent is taken to end. -/
def endsWord (p : CodePoint) : Bool := (" \t;,)]\x7d".toList.map CodePoint.ofChar).contains p

/-- The length of the word that starts at an offset of a line, at least 1. -/
def wordLength (line : Text) (start : Nat) : Nat :=
  max 1 ((line.drop start).takeWhile fun p => !endsWord p).length

/-- The number of carets: the extent of a location within its first line if it is known, else the
length of the word that starts there. -/
def caretCount (l : Location) (column : Nat) (line : Text) : Nat :=
  if l.endLine = l.line ∧ (column : Int) < l.endColumn then l.endColumn.toNat - column
  else wordLength line (column - 1)

/-- The text of a line of a source, without the carriage returns at its end; empty if there is no
such line. -/
def sourceLine (source : Text) (line : Int) : Text :=
  if 1 ≤ line then (source.lines[(line - 1).toNat]?.getD []).dropTrailingReturns else []

/-- The place, the line of the source and the carets. -/
def snippet (d : Diagnostic) (l : Location) (source : Text) : List StyledLine :=
  let number := Text.ofInt l.line
  let gutter := number.length
  let column := (max l.column 1).toNat
  let line := sourceLine source l.line
  let carets := List.replicate (caretCount l column line) (CodePoint.ofChar '^')
  let label := (nonempty? d.label).elim ([] : Text) (" " ++ ·)
  [[.styled .frame (spaces gutter ++ "--> "), .plain l.describe],
    [.styled .frame (spaces (gutter + 1) ++ "|")],
    [.styled .frame (number ++ " | "), .plain line],
    [.styled .frame (spaces (gutter + 1) ++ "| "),
      .styled .alarm (spaces (column - 1) ++ carets ++ label)]]
    ++ d.remarks gutter

/-- The lines of a diagnostic. -/
def lines (d : Diagnostic) (sources : Sources) : List StyledLine :=
  match d.location with
  | none => d.header :: d.remarks 1
  | some l =>
    match sources.lookup l.file with
    | none => d.header :: [.styled .frame " --> ", .plain l.describe] :: d.remarks 1
    | some source => d.header :: d.snippet l source

/-- The text of a diagnostic. -/
def render (d : Diagnostic) (sources : Sources) (color : Bool) : Text :=
  paintLines color (d.lines sources)

end Diagnostic

/-- The source of a problem, under the name of its file. -/
def Problem.sources (p : Problem) : Sources :=
  match p.location, p.source with
  | some l, some source => [(l.file, source)]
  | _, _ => []

/-- The text of a problem, shown with its own source. -/
def Problem.render (p : Problem) (color : Bool) : Text := p.diagnostic.render p.sources color

end TypedLinks
