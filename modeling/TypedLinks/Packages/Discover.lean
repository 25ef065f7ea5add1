import TypedLinks.Disk
import TypedLinks.Stop

/-!
# The link files of a packages folder

    Packages/
        Promise.lua                 a link to a package
        _Index/
            owner_promise@4.0.0/
                Promise.lua         a link between packages
                promise/            the files of a package, which are not looked into

The link files are those of the folder itself, and then those of each folder in the index, each
group in the order of the names.
-/

namespace TypedLinks.Packages

/-- The name of the index in a packages folder. -/
def indexName : Text := "_Index"

/-- Whether a text comes no later than another, by code points. -/
def notAfter : Text → Text → Bool
  | [], _ => true
  | _ :: _, [] => false
  | p :: t, q :: u => p < q || p = q && notAfter t u

/-- Names in order. -/
def sorted (names : List Text) : List Text := names.mergeSort notAfter

/-- The problem of a folder that is none. -/
def missing (folder : Path) : Problem :=
  { kind := .packagesFolder
    message := "packages folder `" ++ folder.text ++ "` does not exist or is not a directory" }

/-- The problem of a folder that cannot be listed. -/
def unlistable (folder : Path) (reason : Text) : Problem :=
  { kind := .packagesFolder
    message := "could not list packages folder `" ++ folder.text ++ "`: " ++ reason }

variable {m : Type → Type} [Monad m] [Disk m]

/-- The names for which a test of the disk succeeds. -/
def keep (test : Text → ExceptT DiskFault m Bool) : List Text → ExceptT DiskFault m (List Text)
  | [] => return []
  | name :: names => do
    let kept ← test name
    let others ← keep test names
    return if kept then name :: others else others

/-- The link files in a folder. -/
def linksIn (folder : Path) : ExceptT DiskFault m (List Path) := do
  let names ← Disk.names (m := m) folder
  let files ← keep (fun name => Disk.isFile (m := m) (folder.child name)) names
  return ((sorted files).map folder.child).filter Path.isModuleFile

/-- The link files in those of some names of an index that are folders. -/
def linksInFolders (index : Path) : List Text → ExceptT DiskFault m (List Path)
  | [] => return []
  | name :: names => do
    let folder := index.child name
    let own ← if ← Disk.isFolder (m := m) folder then linksIn folder else pure []
    let others ← linksInFolders index names
    return own ++ others

/-- The link files in the folders of an index. -/
def linksInIndex (index : Path) : ExceptT DiskFault m (List Path) := do
  if ← Disk.isFolder (m := m) index then
    let names ← Disk.names (m := m) index
    linksInFolders index (sorted names)
  else return []

/-- The link files of a packages folder. -/
def discover (folder : Path) : ExceptT Stop m (List Path) := do
  match ← Disk.isFolder (m := m) folder with
  | .error fault => throw (.crash (.disk fault))
  | .ok false => throw (.problem (missing folder))
  | .ok true =>
    let listing : ExceptT DiskFault m (List Path) := do
      let own ← linksIn folder
      let indexed ← linksInIndex (folder.child indexName)
      return own ++ indexed
    match ← listing.run with
    | .ok links => return links
    | .error fault => throw (fault.stop (unlistable folder))

end TypedLinks.Packages
