import TypedLinks.Disk.FileSystem

/-!
# Canonical paths

The path of a file without links, from the root folder. A path is resolved name by name: a link is
replaced by the path it holds, and what a link resolves to is remembered, so that a link that is met
again while it is being resolved is known to lead back to itself.

Resolution is strict if everything on the way has to exist. A lenient resolution keeps the names
that lead nowhere, and takes a link that leads back to itself for a folder: what is left of each
path is appended to it as it stands.
-/

namespace TypedLinks.FileSystem

/-- What is left to do: a name to follow, or a link whose path ends here. -/
inductive Pending where
  | name (n : Text)
  | resolved (link : Path)

/-- The links that were met, with the paths they resolve to once these are known. -/
abbrev Visited := List (Path × Option Path)

/-- How far a resolution comes without entering a link. -/
inductive Advance where
  | arrived (p : Path)
  /-- A link is met for the first time. -/
  | link (link : Path) (target : Text) (rest : List Pending) (visited : Visited)
  /-- A link is met while it is being resolved. -/
  | cycle (link : Path) (rest : List Pending)

/-- What stands at a path, a link at its end being taken as such. -/
def probe (fs : FileSystem) (folder : DiskLocation) (p : Path) : Except DiskFault Entry :=
  match p.text.unusable? with
  | some why => .error (.unusable why)
  | none =>
    let entry : Except Refusal Entry := do
      if maxPath < p.text.byteLength then throw .nameTooLong
      let l ← fs.follow maxLinks (startOf folder p.isAbsolute) p.folder.names
      fs.member l p.name
    entry.mapError (DiskFault.refused · p.text)

/-- Resolves names from a path until a link has to be entered. -/
def advance (fs : FileSystem) (folder : DiskLocation) (strict : Bool) :
    Visited → Path → List Pending → Except DiskFault Advance
  | _, p, [] => .ok (.arrived p)
  | visited, p, .resolved link :: rest =>
    fs.advance folder strict ((link, some p) :: visited) p rest
  | visited, p, .name n :: rest =>
    if !Path.isStep n then fs.advance folder strict visited p rest
    else if n = Path.parentName then fs.advance folder strict visited p.up rest
    else match fs.probe folder (p.child n) with
      | .error (.refused why path) =>
        if strict then .error (.refused why path)
        else fs.advance folder strict visited (p.child n) rest
      | .error fault => .error fault
      | .ok (.link target) =>
        match visited.lookup (p.child n) with
        | some (some known) => fs.advance folder strict visited known rest
        | some none => .ok (.cycle (p.child n) rest)
        | none => .ok (.link (p.child n) target rest visited)
      | .ok _ => fs.advance folder strict visited (p.child n) rest

/-- A path continued by names that are read as one text. If that starts with a separator, the path
is forgotten. -/
def continued (p : Path) (names : List Text) : Path :=
  p.join (.ofText (Text.join [Path.separator] names))

/-- A path continued by what is left of each path on the way; `names` are those of the first that
were read. -/
def appendRest (p : Path) (names : List Text) : List Pending → Path
  | [] => continued p names
  | .name n :: rest => appendRest p (names ++ [n]) rest
  | .resolved _ :: rest => appendRest (continued p names) [] rest

/-- The fault of a link that leads back to itself, or the one that a walk along it meets before. -/
def cycleFault (fs : FileSystem) (folder : DiskLocation) (link : Path) : DiskFault :=
  match fs.locate folder link with
  | .error (.refused .tooManyLinks _) | .ok _ => .cycle link.text
  | .error fault => fault

/-- The root folder, or the folder that the reader is in. -/
def origin (absolute : Bool) : Path := if absolute then .absolute [] else ⟨.here, []⟩

/-- Resolves names from a path, entering at most a number of links. -/
def enter (fs : FileSystem) (folder : DiskLocation) (strict : Bool) :
    Nat → Visited → Path → List Pending → Except DiskFault Path
  | links, visited, p, pending =>
    match fs.advance folder strict visited p pending, links with
    | .error fault, _ => .error fault
    | .ok (.arrived p), _ => .ok p
    | .ok (.cycle link rest), _ =>
      if strict then .error (fs.cycleFault folder link) else .ok (appendRest link [] rest)
    | .ok (.link link ..), 0 => .error (.cycle link.text)
    | .ok (.link link target rest visited), links + 1 =>
      fs.enter folder strict links ((link, none) :: visited)
        (if Path.isAbsoluteText target then origin true else link.folder)
        ((target.splitOn Path.separator).map .name ++ .resolved link :: rest)

/-- A number of links that no resolution exceeds: a link is entered once under each of its paths,
and such a path leads up at most as often as it has bytes before it leads down to the link. -/
def maxEntered (fs : FileSystem) : Nat := fs.entries.length * (maxPath + 2)

/-- The path from the root folder that a path resolves to. -/
def resolveFrom (fs : FileSystem) (strict : Bool) (folder : DiskLocation) (p : Path) :
    Except DiskFault Path := do
  let q ← fs.enter folder strict fs.maxEntered [] (origin p.isAbsolute) (p.names.map .name)
  return ((Path.absolute folder).join q).normal

/-- The canonical path of something that exists. -/
def canonical (fs : FileSystem) (folder : DiskLocation) (p : Path) : Except DiskFault Path :=
  fs.resolveFrom true folder p

/-- The path without links, as far as it exists; a path that still runs into a link that leads back
to itself is refused. -/
def withoutLinks (fs : FileSystem) (folder : DiskLocation) (p : Path) : Except DiskFault Path := do
  let path ← fs.resolveFrom false folder p
  match fs.locate folder path with
  | .error (.refused .tooManyLinks _) => throw (.cycle path.text)
  | _ => return path

end TypedLinks.FileSystem
