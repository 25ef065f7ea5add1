import TypedLinks.Text.Basic

/-!
# Paths

A path is a root and a list of names. Repeated separators, the name `.` and a separator at the end
say nothing and are dropped when a path is read; the name `..` is kept, since what it means depends
on links. Exactly two separators at the start make a root of their own.
-/

namespace TypedLinks

/-- What a path starts from. -/
inductive Path.Root where
  /-- The folder that the reader is in. -/
  | here
  /-- The root folder. -/
  | slash
  /-- The root folder, written with two separators. -/
  | doubleSlash
  deriving DecidableEq, Repr

/-- A path: where it starts, and the names from there on. -/
structure Path where
  root : Path.Root
  names : List Text
  deriving DecidableEq

namespace Path

/-- The character between the names of a path. -/
def separator : CodePoint := CodePoint.ofChar '/'

/-- The name of the folder itself. -/
def selfName : Text := "."

/-- The name of the folder above. -/
def parentName : Text := ".."

/-- Whether a name takes a path anywhere. -/
def isStep (name : Text) : Bool := !name.isEmpty && name != selfName

/-- The root that the separators at the start of a text spell. -/
def rootOf (t : Text) : Root :=
  match (t.takeWhile (· == separator)).length with
  | 0 => .here
  | 2 => .doubleSlash
  | _ => .slash

/-- The path that a text spells. -/
def ofText (t : Text) : Path := ⟨rootOf t, (t.splitOn separator).filter isStep⟩

/-- The text of a root. -/
def Root.text : Root → Text
  | here => []
  | slash => "/"
  | doubleSlash => "//"

/-- The text of a path. -/
def text (p : Path) : Text :=
  match p.root.text ++ Text.join [separator] p.names with
  | [] => selfName
  | t => t

/-- Whether a path starts from the root folder. -/
def isAbsolute (p : Path) : Bool := p.root != .here

/-- Whether a text spells a path from the root folder. -/
def isAbsoluteText (t : Text) : Bool := t.head? = some separator

/-- The path from the root folder through the given names. -/
def absolute (names : List Text) : Path := ⟨.slash, names⟩

/-- A path read from a folder: an absolute path does not depend on the folder. -/
def join (folder p : Path) : Path :=
  if p.isAbsolute then p else { folder with names := folder.names ++ p.names }

/-- The path of a name in a folder. -/
def child (folder : Path) (name : Text) : Path := { folder with names := folder.names ++ [name] }

/-- The path without its last name. -/
def folder (p : Path) : Path := { p with names := p.names.dropLast }

/-- The folder above, as far as the names tell: the last name is dropped, unless it leads up itself
or there is none. -/
def up (p : Path) : Path :=
  match p.names.getLast? with
  | none => if p.isAbsolute then p else p.child parentName
  | some name => if name = parentName then p.child parentName else p.folder

/-- The path with each name that leads up dropped together with the name before it. -/
def normal (p : Path) : Path :=
  p.names.foldl (fun q name => if name = parentName then q.folder else q.child name)
    { p with names := [] }

/-- The last name of a path, empty if it has none. -/
def name (p : Path) : Text := p.names.getLast?.getD []

/-- The endings of the names of module files. -/
def moduleEndings : List Text := [".lua", ".luau"]

/-- Whether a path is named like a module file: something, and one of the endings. -/
def isModuleFile (p : Path) : Bool :=
  moduleEndings.any fun ending => ending.isSuffixOf p.name && ending.length < p.name.length

end Path

end TypedLinks
