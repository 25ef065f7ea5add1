import TypedLinks.Disk
import TypedLinks.Journal
import TypedLinks.Sourcemap.Reader
import TypedLinks.Stop

/-!
# Loading a sourcemap

A sourcemap is read from a file, and its paths are made canonical, so that a file is found in it
under any of its names.
-/

namespace TypedLinks.Node

/-! ## From a file -/

/-- The text with each carriage return, and each pair of a carriage return and a line feed, in the
place of a line feed. -/
def unifyLineEnds : List Char → List Char
  | '\r' :: '\n' :: cs => '\n' :: unifyLineEnds cs
  | '\r' :: cs => '\n' :: unifyLineEnds cs
  | c :: cs => c :: unifyLineEnds cs
  | [] => []

/-- A problem of a sourcemap file. -/
def fileProblem (verb : Text) (path : Path) (rest : Text) : Problem :=
  { kind := .sourcemap, message := verb ++ "sourcemap `" ++ path.text ++ "`" ++ rest }

/-- What a sourcemap file that cannot be read stops with. -/
def unreadStop (path : Path) (fault : DiskFault) : Stop :=
  match fault with
  | .refused why _ => .problem (fileProblem "could not read " path (": " ++ why.description))
  | fault => .crash (.disk fault)

/-- What a sourcemap file that is not JSON stops with. -/
def jsonStop (path : Path) (document : List Char) (fault : Json.Fault) : Stop :=
  match fault.kind with
  | .integerTooLong => .crash .integerTooLong
  | kind =>
    .problem (fileProblem [] path (" is not valid JSON: " ++ kind.description ++ " (line " ++
      Text.ofNat (fault.line document) ++ ", column " ++ Text.ofNat (fault.column document) ++ ")"))

/-- The sourcemap in the bytes of a file. -/
def ofBytes (path : Path) (bytes : Except DiskFault (List UInt8)) : Logged Stop Node := do
  let bytes ← Logged.ofExcept <| bytes.mapError (unreadStop path)
  let text ← Logged.ofExcept <| (Utf8.decode bytes).mapError fun fault => .crash (.undecodable fault)
  let document := unifyLineEnds text
  let json ← Logged.ofExcept <| (Json.read document).mapError (jsonStop path document)
  let tree ← Logged.ofExcept <|
    (ofJson topPlace json).mapError fun fault => .problem fault.problem
  Logged.log .debug ("Loaded sourcemap " ++ path.text ++ " (root `" ++ tree.name ++ "`)")
  return tree

variable {m : Type → Type} [Monad m] [Disk m]

/-- Loads a sourcemap file. -/
def load [Journal m] (path : Path) : ExceptT Stop m Node := do
  let bytes ← Disk.read (m := m) path
  (ofBytes path bytes).perform (m := m)

/-! ## Canonical paths -/

/-- The problem of a path that leads nowhere. -/
def staleProblem (path : Path) (reason : Text) : Problem :=
  { kind := .staleSourcemap
    message := "sourcemap path `" ++ path.text ++ "` could not be canonicalized: " ++ reason }

/-- The sourcemap with canonical paths. A relative path is read from a folder. -/
def canonicalize (folder : Path) (tree : Node) : ExceptT Stop m Node :=
  tree.mapPaths fun path => do
    match ← Disk.canonical (m := m) (folder.join path) with
    | .ok path => return path
    | .error fault => throw (fault.stop (staleProblem path))

end TypedLinks.Node
