import TypedLinks.Diagnostic.Render

/-!
# Reports

The problems of a run, collected and shown together. One text is kept for each file: the one that
came with the latest problem in it.
-/

namespace TypedLinks

/-- The problems that were reported, in order, and the sources to show them with. -/
structure Report where
  sources : Sources := []
  diagnostics : List Diagnostic := []

namespace Report

/-- Adds a problem. Its source replaces an earlier text of the same file. -/
def add (r : Report) (p : Problem) : Report :=
  ⟨p.sources ++ r.sources, r.diagnostics ++ [p.diagnostic]⟩

/-- Whether a problem was reported. -/
def hasProblems (r : Report) : Bool := !r.diagnostics.isEmpty

/-- The line that counts the problems. -/
def summaryLine (r : Report) : StyledLine :=
  let count := r.diagnostics.length
  let files : Text := if count = 1 then " link file" else " link files"
  [.styled .alarm "error",
    .styled .strong (": " ++ Text.ofNat count ++ files ++ " could not be rewritten")]

/-- The text of the line that counts the problems. -/
def summary (r : Report) (color : Bool) : Text := paintLines color [r.summaryLine]

/-- All problems and the summary, with an empty line between them. -/
def render (r : Report) (color : Bool) : Text :=
  Text.join "\n\n" (r.diagnostics.map (·.render r.sources color) ++ [r.summary color])

end Report

/-! ## Color -/

/-- The environment variables that are set, with their values. -/
abbrev Environment := List (Text × Text)

/-- The lower case of an ASCII letter; other code points stay. -/
def CodePoint.asciiLower (p : CodePoint) : CodePoint :=
  if h : 65 ≤ p.val ∧ p.val ≤ 90 then ⟨p.val + 32, by omega⟩ else p

/-- Whether to use color: not if `NO_COLOR` is set to anything, nor if the variable of the program
says no; otherwise if the output is a terminal. -/
def useColor (environment : Environment) (terminal : Bool) : Bool :=
  let value (name : Text) : Text := (environment.lookup name).getD []
  let no : List Text := ["0", "false", "no", "never"]
  if value "NO_COLOR" ≠ [] then false
  else if no.contains ((value "WALLY_PACKAGE_TYPES_COLOR").map CodePoint.asciiLower) then false
  else terminal

end TypedLinks
