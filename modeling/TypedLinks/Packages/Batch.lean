import TypedLinks.Diagnostic.Report
import TypedLinks.Link.Process
import TypedLinks.Packages.Discover

/-!
# A batch of link files

All link files of a packages folder, processed one after the other. A link file that fails does not
keep the others from being processed.
-/

namespace TypedLinks

/-- What became of the link files of a folder, in the order in which they were processed. -/
structure Batch where
  processed : List Link.Processed

namespace Batch

/-- What became of each link file. -/
def outcomes (b : Batch) : List Outcome := b.processed.map (·.outcome)

/-- The problems of the link files that failed. -/
def problems (b : Batch) : List Problem := b.outcomes.filterMap Outcome.problem?

/-- How many link files changed. -/
def changedCount (b : Batch) : Nat := b.outcomes.countP Outcome.isChanged

/-- How many link files stayed as they were. -/
def unchangedCount (b : Batch) : Nat := b.outcomes.countP Outcome.isUnchanged

/-- How many link files failed. -/
def failedCount (b : Batch) : Nat := b.problems.length

/-- Whether no link file failed. -/
def succeeded (b : Batch) : Bool := b.problems.isEmpty

/-- The problems, collected. -/
def report (b : Batch) : Report := b.problems.foldl Report.add {}

/-- The line that counts the outcomes. -/
def summary (b : Batch) : Text :=
  "Processed " ++ Text.ofNat b.processed.length ++ " link files: " ++
    Text.ofNat b.changedCount ++ " changed, " ++ Text.ofNat b.unchangedCount ++ " unchanged, " ++
    Text.ofNat b.failedCount ++ " failed"

variable {m : Type → Type} [Monad m] [Disk m] [Journal m]

/-- Processes the link files at some paths. -/
def ofLinks (dryRun : Bool) (tree : Node) (links : List Path) : ExceptT Crash m Batch := do
  let batch : Batch := ⟨← links.mapM (Link.process dryRun tree)⟩
  Link.note .info batch.summary
  return batch

/-- Processes the link files of a packages folder. -/
def run (dryRun : Bool) (tree : Node) (folder : Path) : ExceptT Stop m Batch := do
  let links ← Packages.discover folder
  match ← (ofLinks (m := m) dryRun tree links).run with
  | .ok batch => return batch
  | .error c => throw (.crash c)

end Batch

end TypedLinks
