import TypedLinks.Link.Update

/-!
# Processing a link file

A link file is read under its canonical path, updated, and written back if its text changes.
-/

namespace TypedLinks.Link

/-- A link file that was processed, under its canonical path. -/
structure Processed where
  link : Path
  outcome : Outcome

/-- The problem of a link file that cannot be read. -/
def unread (link : Path) (reason : Text) : Problem :=
  { kind := .malformedLink
    message := "could not read link file `" ++ link.text ++ "`: " ++ reason }

/-- The problem of a link file that cannot be written. -/
def unwritten (link : Path) (reason : Text) : Problem :=
  { kind := .link
    message := "could not write link file `" ++ link.text ++ "`: " ++ reason }

/-- The text of a link file, given its bytes. -/
def sourceOf (link : Path) (bytes : Except DiskFault (List UInt8)) : Except Stop (List Char) := do
  let bytes ← bytes.mapError (DiskFault.stop (unread link))
  (Utf8.decode bytes).mapError fun fault => .problem (unread link fault.message)

variable {m : Type → Type} [Monad m] [Disk m] [Journal m]

/-- Logs a line. -/
def note (level : Level) (message : Text) : ExceptT Crash m Unit :=
  Journal.write (m := m) (.log ⟨level, message⟩)

/-- A link file fails, and the problem is logged. -/
def fail (p : Problem) : ExceptT Crash m Outcome := do
  note .error p.message
  return .failed p

/-- Writes a link file that changes. -/
def save (link : Path) (outcome : Outcome) : ExceptT Crash m Outcome :=
  match outcome with
  | .changed source => do
    match ← Disk.write (m := m) link (Utf8.encode source) with
    | .ok () => return outcome
    | .error fault => fail (unwritten link fault.message)
  | outcome => return outcome

/-- Processes a link file of the given text. -/
def processSource (dryRun : Bool) (tree : Node) (link : Path) (source : List Char) :
    ExceptT Crash m Outcome := do
  let outcome ← update tree link source
  if outcome.isChanged && dryRun then
    note .info ("Would rewrite " ++ link.text ++ " (dry run)")
    return outcome
  else save link outcome

/-- Processes the link file at a canonical path. -/
def processLink (dryRun : Bool) (tree : Node) (link : Path) : ExceptT Crash m Outcome := do
  note .info ("Mutating " ++ link.text)
  match sourceOf link (← Disk.read (m := m) link) with
  | .error (.crash c) => throw c
  | .error (.problem p) => fail p
  | .ok source => processSource dryRun tree link source

/-- Processes the link file at a path. A dry run writes nothing. -/
def process (dryRun : Bool) (tree : Node) (p : Path) : ExceptT Crash m Processed := do
  match ← Disk.withoutLinks (m := m) p with
  | .error fault => throw (.disk fault)
  | .ok link => return ⟨link, ← processLink dryRun tree link⟩

end TypedLinks.Link
