import TypedLinks.Diagnostic.Problem
import TypedLinks.Forwarding.Forward
import TypedLinks.Text.Lines

/-!
# The shape of a link file

A link file returns a require call. It is either fresh,

    return require(script.Parent._Index["owner_signal@2.0.1"]["signal"])

or it was updated before:

    local REQUIRED_MODULE = require(script.Parent._Index["owner_signal@2.0.1"]["signal"])
    export type Signal<T> = REQUIRED_MODULE.Signal<T>
    return REQUIRED_MODULE

In the latter form the statements before the `return` may stand in any order.
-/

namespace TypedLinks

open Luau

namespace Link

/-- Why a chunk is no link file. -/
inductive ShapeFault where
  | noReturn
  /-- The `return` does not return one value. -/
  | returnCount (last : Return)
  /-- A statement belongs to neither form. -/
  | unexpected (s : Statement)
  /-- The name of the binding is returned, and nothing is bound to it. -/
  | unbound (returned : Expression)
  /-- What is returned, or bound, is no call. -/
  | notACall (e : Expression)

/-- The problem of a chunk that is no link file. -/
def ShapeFault.problem (chunk : Chunk) (fault : ShapeFault) : Problem :=
  let place (s : Span) : Option Location := some (.ofSpan chunk.file s)
  let quote (s : Span) : List Char := s.text chunk.source
  match fault with
  | noReturn =>
    { kind := .malformedLink, message := "link file does not end with a `return` statement" }
  | returnCount last =>
    { kind := .malformedLink
      message := "link file must return exactly one value, found " ++
        Text.ofNat last.expressions.length
      location := place last.span }
  | unexpected s =>
    { kind := .malformedLink
      message := "unexpected statement in link file: `" ++
        Text.ofChars (firstLine (quote s.span)) ++ "`"
      location := place s.span }
  | unbound returned =>
    let binding := Text.ofChars moduleBinding
    { kind := .malformedLink
      message := "`return " ++ binding ++ "` without a `local " ++ binding ++ " = require(...)`"
      location := place returned.span }
  | notACall e =>
    { kind := .malformedLink
      message := "link file returns `" ++ Text.ofChars (quote e.span) ++
        "` instead of a require call"
      location := place e.span }

/-- Whether an expression is the name of the binding. -/
def isBinding : Expression → Bool
  | .name _ name => name = moduleBinding
  | _ => false

/-- What a statement binds to the name of the binding, if it binds that name alone. -/
def bound? : Statement → Option Expression
  | .localAssignment _ names [e] => if names = [moduleBinding] then some e else none
  | _ => none

/-- What is bound among some statements, which bind once at most and otherwise export types. -/
def binding? : Option Expression → List Statement → Except ShapeFault (Option Expression)
  | binding, [] => .ok binding
  | binding, s :: ss =>
    match binding, bound? s with
    | none, some e => binding? (some e) ss
    | _, _ => if s.exported?.isSome then binding? binding ss else .error (.unexpected s)

/-- The one expression that a chunk returns. -/
def returned (b : Block) : Except ShapeFault Expression :=
  match b.last with
  | none => .error .noReturn
  | some last =>
    match last.expressions with
    | [e] => .ok e
    | _ => .error (.returnCount last)

/-- The call that the returned expression stands for. -/
def calledBy (b : Block) (e : Expression) : Except ShapeFault Expression :=
  if isBinding e then
    match binding? none b.statements with
    | .ok (some bound) => .ok bound
    | .ok none => .error (.unbound e)
    | .error fault => .error fault
  else
    match b.statements with
    | [] => .ok e
    | s :: _ => .error (.unexpected s)

/-- The require call of a link file of either form. -/
def requireCall (b : Block) : Except ShapeFault Expression := do
  let e ← returned b
  let call ← calledBy b e
  if call.isCall then return call else throw (.notACall call)

end Link

end TypedLinks
