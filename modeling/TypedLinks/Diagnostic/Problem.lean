import TypedLinks.Luau.Position
import TypedLinks.Text.Basic

/-!
# Problems

What can go wrong, as far as the user is told. A problem has a kind, a message and, where one is
known, the place it is about together with the source text of that file. A fatal problem ends a
run; a link problem is confined to one link file.
-/

namespace TypedLinks

/-- A place in a named file. A field that is not known is 0. -/
structure Location where
  file : Text
  line : Int
  column : Int
  start : Int := 0
  stop : Int := 0
  endLine : Int := 0
  endColumn : Int := 0
  deriving DecidableEq

namespace Location

/-- The location of a span. -/
def ofSpan (file : Text) (s : Luau.Span) : Location :=
  ⟨file, s.start.line, s.start.column, s.start.offset, s.stop.offset, s.stop.line, s.stop.column⟩

/-- A location as it is written: file, line and column. -/
def describe (l : Location) : Text :=
  l.file ++ ":" ++ Text.ofInt l.line ++ ":" ++ Text.ofInt l.column

end Location

namespace Problem

/-- The kind of a problem. -/
inductive Kind where
  /-- A problem of no particular kind. -/
  | general
  /-- Source that has no syntax. -/
  | syntaxError
  /-- A problem that ends the run, of no particular kind. -/
  | fatal
  /-- The sourcemap cannot be read or is none. -/
  | sourcemap
  /-- A file of the sourcemap does not exist. -/
  | staleSourcemap
  /-- The packages folder is missing or cannot be listed. -/
  | packagesFolder
  /-- A problem of one link file, of no particular kind. -/
  | link
  /-- A link file is no single `return` of a require call, nor one that exports types already. -/
  | malformedLink
  /-- A require call cannot be resolved statically. -/
  | unsupportedRequire
  /-- A require path starts neither at the script nor at the root. -/
  | unsupportedAnchor
  /-- A require path goes above the root. -/
  | brokenPath
  /-- A require path names a child that does not exist. -/
  | unresolvedChild
  /-- A link file that anchors a path is not in the sourcemap. -/
  | unlistedFile
  /-- An instance has no module file. -/
  | noModuleFile
  /-- A required module cannot be read or parsed. -/
  | typeExtraction
  deriving DecidableEq, Repr

namespace Kind

/-- The code of a kind of problem. -/
def code : Kind → Text
  | general => "E0000"
  | fatal => "E0001"
  | sourcemap => "E0002"
  | staleSourcemap => "E0003"
  | packagesFolder => "E0004"
  | syntaxError => "E0010"
  | link => "E0100"
  | malformedLink => "E0101"
  | unsupportedRequire => "E0102"
  | unsupportedAnchor => "E0103"
  | brokenPath => "E0104"
  | unresolvedChild => "E0105"
  | unlistedFile => "E0106"
  | noModuleFile => "E0107"
  | typeExtraction => "E0108"

/-- The advice that goes with a kind of problem. -/
def help : Kind → Option Text
  | sourcemap => some "regenerate the sourcemap (e.g. `rojo sourcemap -o sourcemap.json`)"
  | staleSourcemap => some "the sourcemap is stale; regenerate it after installing packages"
  | packagesFolder =>
    some "run `wally install` first, or pass the folder that holds the link files"
  | malformedLink => some "regenerate link files upstream (e.g. re-run `wally install`)"
  | unsupportedRequire => some
      "link requires must look like `require(script.Parent.Name)` or `require(script.Parent['Name'])`"
  | unsupportedAnchor => some "require paths must start with `script` or `game`"
  | brokenPath =>
    some "the link walks above the sourcemap root; check the sourcemap's project root"
  | unresolvedChild => some "regenerate the sourcemap so it includes the installed packages"
  | unlistedFile => some "regenerate the sourcemap so it includes the packages folder"
  | general | syntaxError | fatal | link | noModuleFile | typeExtraction => none

/-- Whether a problem of this kind ends the run. -/
def isFatal : Kind → Bool
  | fatal | sourcemap | staleSourcemap | packagesFolder => true
  | _ => false

/-- Whether a problem of this kind is confined to one link file. -/
def isLink : Kind → Bool
  | link | malformedLink | unsupportedRequire | unsupportedAnchor | brokenPath | unresolvedChild
  | unlistedFile | noModuleFile | typeExtraction => true
  | _ => false

end Kind

end Problem

/-- A problem. The source is the text of the file that the location is in. -/
structure Problem where
  kind : Problem.Kind
  message : Text
  location : Option Location := none
  source : Option Text := none
  help : Option Text := kind.help
  note : Option Text := none
  label : Option Text := none
  deriving DecidableEq

/-- Adds a place to a problem that has none; or the source to a problem that has a place in the
same file and no source. -/
def Problem.attach (p : Problem) (location : Option Location) (source : Option Text) : Problem :=
  match p.location with
  | none => { p with location, source }
  | some own =>
    if p.source = none ∧ location.map (·.file) = some own.file then { p with source } else p

end TypedLinks
