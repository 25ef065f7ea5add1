import TypedLinks.Disk
import TypedLinks.Disk.Canonical
import TypedLinks.Journal

/-!
# Worlds

What a run works on, as a value: a file system, the working folder and the remarks written so far.
-/

namespace TypedLinks

/-- A file system, the folder that the program works in, and what it wrote. -/
structure World where
  files : FileSystem := {}
  folder : DiskLocation := []
  remarks : List Remark := []

namespace World

/-- What a function of the file system and the working folder gives. -/
def query {α : Type} (f : FileSystem → DiskLocation → α) : StateM World α :=
  return f (← get).files (← get).folder

instance : Disk (StateM World) where
  workingFolder := query fun _ folder => .absolute folder
  canonical p := query (·.canonical · p)
  withoutLinks p := query (·.withoutLinks · p)
  read p := query (·.read · p)
  write p bytes := do
    match ← query (·.write · p bytes) with
    | .ok files => modify ({ · with files }); return .ok ()
    | .error fault => return .error fault
  isFile p := query (·.isFile · p)
  isFolder p := query (·.isFolder · p)
  names p := query (·.names · p)

instance : Journal (StateM World) where
  write remark := modify fun w => { w with remarks := w.remarks ++ [remark] }

/-- The text of the remarks. -/
def output (w : World) (verbose : Bool) : Text := w.remarks.flatMap (Remark.text verbose)

end World

end TypedLinks
