import TypedLinks.Diagnostic.Problem
import TypedLinks.Path

/-!
# Outcomes

What became of a link file, and how far the work on it has come.
-/

namespace TypedLinks

/-- What became of a link file. -/
inductive Outcome where
  | unchanged
  /-- The link file gets another text. -/
  | changed (source : List Char)
  | failed (p : Problem)

namespace Outcome

/-- Whether a link file gets another text. -/
def isChanged : Outcome → Bool
  | changed _ => true
  | _ => false

/-- Whether a link file stays as it is for no fault. -/
def isUnchanged : Outcome → Bool
  | unchanged => true
  | _ => false

/-- The problem of a link file that failed. -/
def problem? : Outcome → Option Problem
  | failed p => some p
  | _ => none

end Outcome

/-- How far the work on a link file has come. -/
inductive Stage where
  | start | parsed | anchorResolved | moduleLocated | typesExtracted | updated | unchanged | failed
  deriving DecidableEq, Repr

namespace Stage

/-- The name of a stage. -/
def name : Stage → Text
  | start => "start"
  | parsed => "parsed"
  | anchorResolved => "anchor_resolved"
  | moduleLocated => "module_located"
  | typesExtracted => "types_extracted"
  | updated => "rewritten"
  | unchanged => "unchanged"
  | failed => "failed"

/-- What is logged of a step from a stage to another. -/
def stepMessage (link : Path) (source target : Stage) : Text :=
  link.text ++ ": " ++ source.name ++ " -> " ++ target.name

end Stage

end TypedLinks
