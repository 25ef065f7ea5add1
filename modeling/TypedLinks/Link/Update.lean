import TypedLinks.Disk
import TypedLinks.Journal
import TypedLinks.Link.Outcome
import TypedLinks.Link.Shape
import TypedLinks.Luau.Parse
import TypedLinks.Sourcemap.Resolution
import TypedLinks.Stop

/-!
# Updating a link file

A link file is parsed, its require path is resolved over the sourcemap to a module file, and the
exported types of that module are written into it. Both forms of a link file lead to the same text,
so that a file that was updated stays as it is.

A problem on the way is one of the link file. Where it has no place of its own, it is put at the
require call if that is known, else at the start of the file.
-/

namespace TypedLinks

open Luau

namespace Link

/-- Why the work on a link file ends early: a problem at a stage, or a crash. -/
inductive Halt where
  | problem (stage : Stage) (p : Problem)
  | crash (c : Crash)

/-- Work on a link file. -/
abbrev Work := Logged Halt

/-- The start of a file. -/
def startOf (link : Path) : Location := ⟨link.text, 1, 1, 0, 0, 0, 0⟩

/-- Work at a stage of a link file, with the place of problems that have none. -/
def atStage {α : Type} (source : List Char) (place : Location) (stage : Stage)
    (w : Logged Stop α) : Work α :=
  w.mapError fun
    | .problem p => .problem stage (p.attach (some place) (some (Text.ofChars source)))
    | .crash c => .crash c

/-- Logs a step from a stage to another. -/
def step {ε : Type} (link : Path) (source target : Stage) : Logged ε Unit :=
  Logged.log .debug (Stage.stepMessage link source target)

/-- The chunk of a source, with the problem that a syntax error makes. -/
def parseFile (file : Text) (source : List Char) (problem : Problem → Problem) :
    Logged Stop Chunk :=
  match parse file source with
  | .error (.problem p) => throw (.problem (problem p))
  | .error (.unbuildable fault) => throw (.crash (.unbuildable fault))
  | .ok chunk => do
    Logged.log .debug
      ("Parsed " ++ file ++ ": " ++ Text.ofNat chunk.block.statements.length ++ " statements")
    return chunk

/-- The problem of a link file with a syntax error. -/
def unparsedLink (p : Problem) : Problem :=
  { kind := .malformedLink
    message := "link file is not valid Luau: " ++ p.message
    location := p.location
    source := p.source }

/-- A link file whose module is known. -/
structure Plan where
  chunk : Chunk
  /-- The require call. -/
  call : Expression
  module : Path

/-- Finds the module of a link file. -/
def plan (tree : Node) (link : Path) (source : List Char) : Work Plan := do
  let (chunk, call) ← atStage source (startOf link) .start do
    let chunk ← parseFile link.text source unparsedLink
    let call ← Logged.ofExcept <|
      (requireCall chunk.block).mapError fun fault => .problem (fault.problem chunk)
    return (chunk, call)
  step link .start .parsed
  let place := Location.ofSpan chunk.file call.span
  let target ← atStage source place .parsed do
    let path ← Logged.ofExcept <|
      (RequirePath.ofCall call).mapError fun fault => .problem (fault.problem chunk)
    Logged.log .info ("Found require in format " ++ Text.join "/" path)
    let target ← Logged.ofExcept <|
      (tree.resolve link path).mapError fun fault => .problem fault.problem
    Logged.log .debug (path.resolvedMessage target)
    return target.node
  step link .parsed .anchorResolved
  let module ← atStage source place .anchorResolved do
    match target.moduleFile? with
    | none => throw (.problem target.noModuleProblem)
    | some module =>
      Logged.log .info ("Required file is " ++ target.name ++ " [" ++ target.className ++
        "], located at " ++ module.text)
      return module
  step link .anchorResolved .moduleLocated
  return ⟨chunk, call, module⟩

/-- The problem of a module that cannot be read. -/
def unreadModule (module : Path) (reason : Text) : Problem :=
  { kind := .typeExtraction
    message := "could not read module `" ++ module.text ++ "`: " ++ reason }

/-- The exported types of a module, given its bytes. -/
def extract (module : Path) (bytes : Except DiskFault (List UInt8)) :
    Logged Stop (List Declaration) := do
  let bytes ← Logged.ofExcept <| bytes.mapError (DiskFault.stop (unreadModule module))
  let source ← Logged.ofExcept <|
    (Utf8.decode bytes).mapError fun fault => .problem (unreadModule module fault.message)
  let chunk ← parseFile module.text source (unparsedModule module.text)
  let declarations := chunk.exports
  Logged.log .debug ("Extracted " ++ Text.ofNat declarations.length ++ " exported types from " ++
    module.text)
  return declarations

/-- What is logged of a default that is dropped. -/
def dropMessage (d : Declaration) (p : Parameter) : Text :=
  let text := (p.default.map (·.text)).getD []
  "Dropping default `" ++ Text.ofChars text ++ "` of " ++ Text.ofChars d.name ++ "<" ++
    Text.ofChars p.name ++ ">: not visible from the link file"

namespace Plan

/-- The text of the link file that exports some types. -/
def render (p : Plan) (declarations : List Declaration) : List Char :=
  let separator := lineSeparator p.chunk.source
  let trailer := if p.chunk.trailingTrivia = [] then separator else p.chunk.trailingTrivia
  renderLink p.chunk.leadingTrivia (p.call.span.text p.chunk.source) (forwardAll declarations)
    trailer separator

/-- What becomes of a link file, given the bytes of its module. -/
def finish (p : Plan) (link : Path) (bytes : Except DiskFault (List UInt8)) : Work Outcome := do
  let place := Location.ofSpan p.chunk.file p.call.span
  let declarations ← atStage p.chunk.source place .moduleLocated (extract p.module bytes)
  step link .moduleLocated .typesExtracted
  if declarations.isEmpty then
    Logged.log .info (p.module.text ++ " exports no types; leaving link untouched")
    step link .typesExtracted .unchanged
    return .unchanged
  for (d, parameter) in droppedAfter [] declarations do
    Logged.log .debug (dropMessage d parameter)
  let source := p.render declarations
  if source = p.chunk.source then
    step link .typesExtracted .unchanged
    return .unchanged
  step link .typesExtracted .updated
  return .changed source

end Plan

/-- The outcome of work that ended early. -/
def Halt.settle {m : Type → Type} [Monad m] [Journal m] (link : Path) :
    Halt → ExceptT Crash m Outcome
  | .crash c => throw c
  | .problem stage p => do
    Journal.write (m := m) (.log ⟨.debug, Stage.stepMessage link stage .failed⟩)
    Journal.write (m := m) (.log ⟨.error, link.text ++ ": " ++ p.message⟩)
    return .failed p

/-- What becomes of a link file of the given text, of which nothing is written. The path has to be
canonical: it is looked up in the sourcemap. -/
def update {m : Type → Type} [Monad m] [Disk m] [Journal m] (tree : Node) (link : Path)
    (source : List Char) : ExceptT Crash m Outcome := do
  match ← (plan tree link source).perform (m := m) with
  | .error halt => halt.settle link
  | .ok p =>
    let bytes ← Disk.read (m := m) p.module
    match ← (p.finish link bytes).perform (m := m) with
    | .error halt => halt.settle link
    | .ok outcome => return outcome

end Link

end TypedLinks
