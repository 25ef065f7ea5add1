import TypedLinks.Luau.StringLiteral
import TypedLinks.Luau.Syntax
import TypedLinks.Luau.Tree

/-!
# From parse trees to syntax

A parse tree is turned into syntax from its leaves up. A node contributes parts to the node above
it: a spliced node those of its children, any other node the one part that its construct builds.
Children are handled from left to right, so the first fault in the source is reported.
-/

namespace TypedLinks.Luau

/-- Why a parse tree has no syntax. -/
inductive NodeFault where
  /-- A string literal cannot be decoded. -/
  | badString (fault : StringLiteral.Fault)
  /-- An expression stands as a statement and is no call. -/
  | notACall (span : Span)
  /-- A node needs the name of its file, and that is empty. -/
  | unnamedFile
  /-- The parts of a node do not fit its construct. -/
  | malformed
  deriving DecidableEq, Repr

/-- What a node contributes to the node above it. -/
inductive Part where
  | token (t : Token)
  | block (b : Block)
  | statement (s : Statement)
  | returned (r : Return)
  | binding (name : Name)
  | bindings (names : List Name)
  | expression (e : Expression)
  | expressions (es : List Expression)
  | arguments (es : List Expression) (style : ArgumentStyle)
  | type (t : TypeNode)
  | types (ts : List TypeNode)
  | generic (g : GenericParameter)
  | generics (gs : List GenericParameter)

namespace Part

/-- The statement of a part. -/
def statement? : Part → Option Statement
  | statement s => some s
  | _ => none

/-- The `return` of a part. -/
def returned? : Part → Option Return
  | returned r => some r
  | _ => none

/-- The bound name of a part. -/
def binding? : Part → Option Name
  | binding name => some name
  | _ => none

/-- The expression of a part. -/
def expression? : Part → Option Expression
  | expression e => some e
  | _ => none

/-- The type of a part. -/
def type? : Part → Option TypeNode
  | type t => some t
  | _ => none

/-- The generic parameter of a part. -/
def generic? : Part → Option GenericParameter
  | generic g => some g
  | _ => none

end Part

/-! ## Single constructs -/

/-- A type between parentheses, or a pack: one type alone is a pack only if it is a pack member. -/
def parenthesizedType (span : Span) (items : List TypeNode) : TypeNode :=
  match items with
  | [t] => .composite span (if t.isPackMember then .pack else .parenthesized) [t]
  | ts => .composite span .pack ts

/-- A type declaration from its parts: the words that start it, its name, its generic parameters if
it has a list of them, and its body. -/
def typeDeclaration? (span : Span) : List Part → Option TypeDeclaration
  | .token ⟨.kwExport, _, _⟩ :: parts => (declared parts).map fun f => f true
  | parts => (declared parts).map fun f => f false
where
  declared : List Part → Option (Bool → TypeDeclaration)
    | [.token _, .token name, .generics gs, .type body] =>
      some fun exported => ⟨span, exported, name.text, some gs, body⟩
    | [.token _, .token name, .type body] =>
      some fun exported => ⟨span, exported, name.text, none, body⟩
    | _ => none

/-- A reference to a type from its parts: a name, or a module and a name, and the arguments. -/
def typeReference? (span : Span) : List Part → Option TypeNode
  | [.token name] => some (.reference span none name.text [])
  | [.token name, .types arguments] => some (.reference span none name.text arguments)
  | [.token module, .token name] => some (.reference span (some module.text) name.text [])
  | [.token module, .token name, .types arguments] =>
    some (.reference span (some module.text) name.text arguments)
  | _ => none

/-- A function type from its parts: generics and parameters may be missing. -/
def functionType? (span : Span) : List Part → Option TypeNode
  | [.type returns] => some (.function span [] [] returns)
  | [.types parameters, .type returns] => some (.function span [] parameters returns)
  | [.generics gs, .type returns] => some (.function span (gs.map (·.name)) [] returns)
  | [.generics gs, .types parameters, .type returns] =>
    some (.function span (gs.map (·.name)) parameters returns)
  | _ => none

/-- A call of a method from its parts; an instantiation before the arguments is dropped. -/
def methodCall? (span : Span) : List Part → Option Expression
  | [.expression receiver, .token method, .arguments es style] =>
    some (.methodCall span receiver method.text es style)
  | [.expression receiver, .token method, .types _, .arguments es style] =>
    some (.methodCall span receiver method.text es style)
  | _ => none

/-- A generic parameter from its parts. -/
def genericParameter? (span : Span) (variadic : Bool) : List Part → Option GenericParameter
  | [.token name] => some ⟨span, name.text, variadic, none⟩
  | [.token name, .type default] => some ⟨span, name.text, variadic, some default⟩
  | _ => none

/-- An expression as a statement. -/
def callStatement (span : Span) (e : Expression) : Except NodeFault Part :=
  if e.isCall then .ok (.statement (.plain span)) else .error (.notACall e.span)

/-- A string literal as an expression. -/
def stringExpression (span : Span) (literal : List Char) : Except NodeFault Part :=
  match StringLiteral.decode literal with
  | .ok value => .ok (.expression (.string span value))
  | .error fault => .error (.badString fault)

/-! ## Every construct -/

/-- A part that may not have been built. -/
def built {α : Type} (wrap : α → Part) : Option α → Except NodeFault Part
  | some a => .ok (wrap a)
  | none => .error .malformed

/-- What a construct builds from its parts. -/
def assemble (construct : Construct) (span : Span) (parts : List Part) :
    Except NodeFault Part :=
  let plain (kind : PlainExpression) : Except NodeFault Part := .ok (.expression (.plain span kind))
  let composite (kind : CompositeType) : Except NodeFault Part :=
    .ok (.type (.composite span kind (parts.filterMap Part.type?)))
  match construct, parts with
  | .spliced, _ => .error .malformed
  | .block, parts =>
    .ok (.block ⟨parts.filterMap Part.statement?, parts.findSome? Part.returned?⟩)
  | .statement, _ => .ok (.statement (.plain span))
  | .callStatement, [.expression e] => callStatement span e
  | .localAssignment, [.bindings names] => .ok (.statement (.localAssignment span names []))
  | .localAssignment, [.bindings names, .expressions es] =>
    .ok (.statement (.localAssignment span names es))
  | .typeDeclaration, parts => built (.statement ∘ .typeDeclaration) (typeDeclaration? span parts)
  | .typeFunction, _ => .ok (.statement (.typeFunction span))
  | .returnStatement, [] => .ok (.returned ⟨span, []⟩)
  | .returnStatement, [.expressions es] => .ok (.returned ⟨span, es⟩)
  | .bindingList, parts => .ok (.bindings (parts.filterMap Part.binding?))
  | .binding, .token name :: _ => .ok (.binding name.text)
  | .expressionList, parts => .ok (.expressions (parts.filterMap Part.expression?))
  | .operatorChain, _ => plain .operatorChain
  | .unaryOperation, _ => plain .unaryOperation
  | .typeAssertion, _ => plain .typeAssertion
  | .literal, _ => plain .literal
  | .string, [.token t] => stringExpression span t.text
  | .interpolatedString, _ => plain .interpolatedString
  | .table, _ => plain .table
  | .function, _ => plain .function
  | .ifExpression, _ => plain .ifExpression
  | .name, [.token t] => .ok (.expression (.name span t.text))
  | .parenthesized, [.expression e] => .ok (.expression (.parenthesized span e))
  | .fieldIndex, [.expression base, .token name] =>
    .ok (.expression (.field span base name.text))
  | .keyIndex, [.expression base, .expression key] => .ok (.expression (.key span base key))
  | .instantiation, _ => plain .instantiation
  | .call, [.expression callee, .arguments es style] =>
    .ok (.expression (.call span callee es style))
  | .methodCall, parts => built .expression (methodCall? span parts)
  | .parenthesizedArguments, [] => .ok (.arguments [] .parentheses)
  | .parenthesizedArguments, [.expressions es] => .ok (.arguments es .parentheses)
  | .tableArguments, [.expression e] => .ok (.arguments [e] .table)
  | .stringArguments, [.expression e] => .ok (.arguments [e] .string)
  | .typeInstantiation, parts => .ok (.types (parts.filterMap Part.type?))
  | .unionType, _ => composite .union
  | .optionalType, _ => composite .optional
  | .nilType, _ => .ok (.type (.reference span none "nil".toList []))
  | .singletonType, _ => composite .singleton
  | .typeofType, [.expression e] => .ok (.type (.typeof span e))
  | .tableType, _ => composite .table
  | .parenthesizedType, [] => .ok (.type (parenthesizedType span []))
  | .parenthesizedType, [.types ts] => .ok (.type (parenthesizedType span ts))
  | .functionType, parts => built .type (functionType? span parts)
  | .typeReference, parts => built .type (typeReference? span parts)
  | .typeArguments, parts => .ok (.types (parts.filterMap Part.type?))
  | .typeList, parts => .ok (.types (parts.filterMap Part.type?))
  | .variadicType, _ => composite .variadic
  | .genericPack, [.token t] => .ok (.type (.packReference span t.text))
  | .genericParameterList, parts => .ok (.generics (parts.filterMap Part.generic?))
  | .genericParameter, parts => built .generic (genericParameter? span false parts)
  | .genericPackParameter, parts => built .generic (genericParameter? span true parts)
  | _, _ => .error .malformed

/-! ## Trees -/

/-- The extent of two neighbours, either of which may be empty. -/
def joinSpans : Option Span → Option Span → Option Span
  | none, s => s
  | s, none => s
  | some a, some b => some (a.through b)

/-- The parts that a node contributes, given those of its children and their extent. Only a block
can be empty. -/
def contribute (construct : Construct) (parts : List Part) (span : Option Span) :
    Except NodeFault (List Part) :=
  match construct, span with
  | .spliced, _ => .ok parts
  | c, some span => (fun p => [p]) <$> assemble c span parts
  | .block, none => .ok [.block ⟨[], none⟩]
  | _, none => .error .malformed

namespace Tree

mutual

/-- The parts that a tree contributes, and its extent. -/
def parts : Tree → Except NodeFault (List Part × Option Span)
  | leaf t => .ok (if t.terminal.isContent then [.token t] else [], some t.span)
  | node _ construct children => do
    let (parts, span) ← partsOf children
    let own ← contribute construct parts span
    return (own, span)

/-- The parts that neighbouring trees contribute, and their extent. -/
def partsOf : List Tree → Except NodeFault (List Part × Option Span)
  | [] => .ok ([], none)
  | t :: ts => do
    let (first, span) ← t.parts
    let (others, span') ← partsOf ts
    return (first ++ others, joinSpans span span')

end

/-- The block of a parse tree of a whole source. -/
def block (t : Tree) : Except NodeFault Block := do
  match ← t.parts with
  | ([.block b], _) => return b
  | _ => .error .malformed

end Tree

/-- The chunk of a parse tree. Every node keeps the name of its file, so a source that has any
needs one. -/
def Chunk.ofTree (file : Text) (source : List Char) (t : Tree) : Except NodeFault Chunk :=
  if file = [] ∧ t.tokens ≠ [] then .error .unnamedFile
  else (fun b => ⟨file, source, b⟩) <$> t.block

end TypedLinks.Luau
