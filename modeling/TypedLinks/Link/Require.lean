import TypedLinks.Diagnostic.Problem
import TypedLinks.Luau.Syntax
import TypedLinks.Text.Blank

/-!
# Require paths

The path of instances that a require call names:

    require(script.Parent._Index["owner_signal@2.0.1"]["signal"])

names `script`, `Parent`, `_Index`, `owner_signal@2.0.1` and `signal`. Only identifiers, fields and
string literals as keys make up a path; anything that would have to be evaluated is refused, with
the expression that is to blame.
-/

namespace TypedLinks

open Luau

/-- The steps of a require path. The first is the identifier that the path starts with. -/
abbrev RequirePath := List Text

namespace RequirePath

/-- Why an expression is no static require call. -/
inductive Reason where
  /-- The expression is no call. -/
  | notACall
  /-- Something other than `require` is called. -/
  | notRequire
  /-- The arguments are not in parentheses. -/
  | notParenthesized
  /-- There is not one argument. -/
  | argumentCount (n : Nat)
  /-- An index key is not a string literal. -/
  | dynamicKey
  /-- The expression is no path. -/
  | notAPath
  deriving DecidableEq, Repr

/-- A reason in words. -/
def Reason.description : Reason → Text
  | notACall => "expected a call to `require`"
  | notRequire => "expected the callee to be `require`"
  | notParenthesized => "require must be called with parentheses"
  | argumentCount n => "require takes one argument, found " ++ Text.ofNat n
  | dynamicKey => "only string literals can be used as index keys"
  | notAPath => "not a static instance path"

/-- The expression that is to blame, and why. -/
structure Fault where
  expression : Expression
  reason : Reason

/-- The path that an expression spells. -/
def ofExpression : Expression → Except Fault RequirePath
  | .name _ name => .ok [Text.ofChars name]
  | .field _ base name => do
    let path ← ofExpression base
    return path ++ [Text.ofChars name]
  | .key _ base key => do
    let path ← ofExpression base
    match key with
    | .string _ value => return path ++ [value.trim]
    | key => .error ⟨key, .dynamicKey⟩
  | e => .error ⟨e, .notAPath⟩

/-- Whether an expression is the name `require`. -/
def isRequire : Expression → Bool
  | .name _ name => name = "require".toList
  | _ => false

/-- The path of a require call. -/
def ofCall (e : Expression) : Except Fault RequirePath :=
  match e with
  | .call _ callee arguments style =>
    if !isRequire callee then .error ⟨callee, .notRequire⟩
    else if style ≠ .parentheses then .error ⟨e, .notParenthesized⟩
    else match arguments with
      | [argument] => ofExpression argument
      | arguments => .error ⟨e, .argumentCount arguments.length⟩
  | e => .error ⟨e, .notACall⟩

/-- The problem of an expression in a chunk that is no require call. -/
def Fault.problem (chunk : Chunk) (f : Fault) : Problem :=
  let reason := f.reason.description
  { kind := .unsupportedRequire
    message := "unsupported require expression `" ++
      Text.ofChars (f.expression.span.text chunk.source) ++ "`: " ++ reason
    location := some (.ofSpan chunk.file f.expression.span)
    label := some reason }

end RequirePath

end TypedLinks
