import TypedLinks.CommandLine.Manual
import TypedLinks.Packages.Batch
import TypedLinks.Sourcemap.Load

/-!
# A run

The sourcemap is loaded and made canonical, and the link files of the folder are processed. A fatal
problem ends the run before any link file is touched; the problems of link files are reported at the
end.
-/

namespace TypedLinks.CommandLine

/-- The advice after link files failed. -/
def remedy : Text :=
  "regenerate the link files upstream (e.g. re-run `wally install`) " ++
    "and the sourcemap (e.g. `rojo sourcemap`), then run this tool again"

variable {m : Type → Type} [Monad m] [Disk m] [Journal m]

/-- Loads the sourcemap and processes the link files. -/
def work (o : Options) : ExceptT Stop m Batch := do
  let some sourcemap := o.sourcemap | throw (.crash .noSourcemap)
  let tree ← Node.load sourcemap
  let folder ← (Disk.workingFolder : m Path)
  let tree ← Node.canonicalize folder tree
  Batch.run o.dryRun tree o.folder

/-- The lines about a fatal problem. -/
def fatalLines (p : Problem) : Text :=
  programLine ("error: " ++ p.message) ++
    (Diagnostic.nonempty? p.help).elim [] fun help => programLine ("help: " ++ help)

/-- Writes text to the error output. -/
def tell (text : Text) : ExceptT Crash m Unit := Journal.write (m := m) (.plain text)

/-- Does what the options ask for, and gives the status that the program exits with. -/
def execute (color : Bool) (o : Options) : ExceptT Crash m Nat := do
  match ← (work (m := m) o).run with
  | .error (.crash c) => throw c
  | .error (.problem p) =>
    tell (fatalLines p)
    return 1
  | .ok batch =>
    if batch.succeeded then return 0
    else
      tell (batch.report.render color ++ "\n")
      tell (programLine remedy)
      return 1

end TypedLinks.CommandLine
