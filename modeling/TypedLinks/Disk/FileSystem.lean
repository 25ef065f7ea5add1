import TypedLinks.Disk.Fault
import TypedLinks.Path

/-!
# File systems

A file system as a value: the files, folders and links at some locations, a location being the names
on the way from the root folder. A path is looked up name by name; a link is replaced by the path it
holds, a bounded number of times, and `..` leaves the folder that the walk is in.
-/

namespace TypedLinks

/-- The names on the way from the root folder. -/
abbrev DiskLocation := List Text

/-- What stands at a location. -/
inductive Entry where
  | file (bytes : List UInt8)
  | folder
  /-- A link, with the text of the path that it leads to. -/
  | link (target : Text)
  deriving DecidableEq

/-- The entries of a file system. -/
structure FileSystem where
  entries : List (DiskLocation × Entry) := []

namespace FileSystem

/-! ## Entries -/

/-- What stands at a location; the root is a folder. -/
def entry? (fs : FileSystem) (l : DiskLocation) : Option Entry :=
  if l = [] then some .folder else fs.entries.lookup l

/-- The file system with an entry put at a location. -/
def put (fs : FileSystem) (l : DiskLocation) (e : Entry) : FileSystem :=
  if (fs.entries.lookup l).isSome then
    ⟨fs.entries.map fun (l', e') => (l', if l' = l then e else e')⟩
  else ⟨fs.entries ++ [(l, e)]⟩

/-- The file system without the entry at a location. -/
def remove (fs : FileSystem) (l : DiskLocation) : FileSystem :=
  ⟨fs.entries.filter fun (l', _) => l' ≠ l⟩

/-- The names of the entries in a folder. -/
def namesIn (fs : FileSystem) (folder : DiskLocation) : List Text :=
  fs.entries.filterMap fun (l, _) =>
    if l.dropLast = folder then l.getLast? else none

/-! ## Walks -/

/-- How far a walk comes without following a link. -/
inductive Progress where
  | arrived (l : DiskLocation)
  /-- The walk meets a link in a folder, with more names to come. -/
  | link (folder : DiskLocation) (target : Text) (rest : List Text)

/-- The most bytes of a name. -/
def maxName : Nat := 255

/-- The most bytes of a path. -/
def maxPath : Nat := 4095

/-- The most links that a walk follows. -/
def maxLinks : Nat := 40

/-- What stands under a name in a folder, a link being taken as such. -/
def member (fs : FileSystem) (folder : DiskLocation) (name : Text) : Except Refusal Entry :=
  if fs.entry? folder ≠ some .folder then .error .notFolder
  else if maxName < name.byteLength then .error .nameTooLong
  else match fs.entry? (folder ++ [name.onDisk]) with
    | none => .error .notFound
    | some e => .ok e

/-- Walks from a location along names until a link is met. -/
def scan (fs : FileSystem) : DiskLocation → List Text → Except Refusal Progress
  | l, [] => .ok (.arrived l)
  | l, name :: rest =>
    if fs.entry? l ≠ some .folder then .error .notFolder
    else if !Path.isStep name then fs.scan l rest
    else if name = Path.parentName then fs.scan l.dropLast rest
    else match fs.member l name with
      | .error why => .error why
      | .ok (.link target) => .ok (.link l target rest)
      | .ok _ => fs.scan (l ++ [name.onDisk]) rest

/-- Where a path starts that is read from a folder. -/
def startOf (folder : DiskLocation) (absolute : Bool) : DiskLocation :=
  if absolute then [] else folder

/-- Walks from a location along names, following at most a number of links. -/
def follow (fs : FileSystem) : Nat → DiskLocation → List Text → Except Refusal DiskLocation
  | links, l, names =>
    match fs.scan l names, links with
    | .error why, _ => .error why
    | .ok (.arrived l), _ => .ok l
    | .ok (.link ..), 0 => .error .tooManyLinks
    | .ok (.link folder target rest), links + 1 =>
      fs.follow links (startOf folder (Path.isAbsoluteText target))
        (target.splitOn Path.separator ++ rest)

/-- The location that a path leads to from a working folder. -/
def locate (fs : FileSystem) (folder : DiskLocation) (p : Path) :
    Except DiskFault DiskLocation :=
  match p.text.unusable? with
  | some why => .error (.unusable why)
  | none =>
    let walk :=
      if maxPath < p.text.byteLength then .error .nameTooLong
      else fs.follow maxLinks (startOf folder p.isAbsolute) p.names
    walk.mapError (DiskFault.refused · p.text)

/-! ## Operations -/

/-- The bytes of a file. -/
def read (fs : FileSystem) (folder : DiskLocation) (p : Path) : Except DiskFault (List UInt8) := do
  let l ← fs.locate folder p
  match fs.entry? l with
  | some (.file bytes) => return bytes
  | some .folder => throw (.refused .isFolder p.text)
  | _ => throw (.refused .notFound p.text)

/-- Replaces the bytes of a file. -/
def write (fs : FileSystem) (folder : DiskLocation) (p : Path) (bytes : List UInt8) :
    Except DiskFault FileSystem := do
  let l ← fs.locate folder p
  match fs.entry? l with
  | some (.file _) => return fs.put l (.file bytes)
  | some .folder => throw (.refused .isFolder p.text)
  | _ => throw (.refused .notFound p.text)

/-- The entry that a path leads to, if there is one. A path that cannot be one leads nowhere. -/
def target? (fs : FileSystem) (folder : DiskLocation) (p : Path) :
    Except DiskFault (Option Entry) :=
  match fs.locate folder p with
  | .ok l => .ok (fs.entry? l)
  | .error (.refused why path) => if why.meansAbsent then .ok none else .error (.refused why path)
  | .error _ => .ok none

/-- Whether a path leads to a file. -/
def isFile (fs : FileSystem) (folder : DiskLocation) (p : Path) : Except DiskFault Bool := do
  match ← fs.target? folder p with
  | some (.file _) => return true
  | _ => return false

/-- Whether a path leads to a folder. -/
def isFolder (fs : FileSystem) (folder : DiskLocation) (p : Path) : Except DiskFault Bool := do
  return (← fs.target? folder p) = some .folder

/-- The names in a folder. -/
def names (fs : FileSystem) (folder : DiskLocation) (p : Path) : Except DiskFault (List Text) := do
  let l ← fs.locate folder p
  if fs.entry? l = some .folder then return fs.namesIn l
  else throw (.refused .notFolder p.text)

end FileSystem

end TypedLinks
