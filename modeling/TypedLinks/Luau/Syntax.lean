import TypedLinks.Luau.Position
import TypedLinks.Text.Basic

/-!
# Syntax

The syntax of a source as far as links need it. Names, strings, indexing, calls and parentheses make
up the expressions that a require path can be made of; type references, packs and the binders of
function types are what scoping looks at. Everything else keeps its extent only.
-/

namespace TypedLinks.Luau

/-- An identifier. -/
abbrev Name := List Char

/-! ## Expressions -/

/-- Expressions that are not looked into. -/
inductive PlainExpression where
  | literal | interpolatedString | instantiation | table | function | ifExpression
  | unaryOperation | operatorChain | typeAssertion
  deriving DecidableEq, Repr

/-- How the arguments of a call are written. -/
inductive ArgumentStyle where
  | parentheses | table | string
  deriving DecidableEq, Repr

/-- An expression. -/
inductive Expression where
  | name (span : Span) (name : Name)
  | string (span : Span) (value : Text)
  | parenthesized (span : Span) (inner : Expression)
  | field (span : Span) (base : Expression) (name : Name)
  | key (span : Span) (base key : Expression)
  | call (span : Span) (callee : Expression) (arguments : List Expression) (style : ArgumentStyle)
  | methodCall (span : Span) (receiver : Expression) (method : Name)
      (arguments : List Expression) (style : ArgumentStyle)
  | plain (span : Span) (kind : PlainExpression)
  deriving BEq, Repr

namespace Expression

/-- The extent of an expression. -/
def span : Expression → Span
  | name s _ | string s _ | parenthesized s _ | field s _ _ | key s _ _ | call s _ _ _
  | methodCall s _ _ _ _ | plain s _ => s

/-- Whether an expression is a call of a function or a method. -/
def isCall : Expression → Bool
  | call .. | methodCall .. => true
  | _ => false

end Expression

/-! ## Types -/

/-- Types that are made of their parts and name nothing themselves. -/
inductive CompositeType where
  | singleton | table | union | optional | parenthesized | pack | variadic
  deriving DecidableEq, Repr

/-- A type. -/
inductive TypeNode where
  /-- A type by its name, with the module it is taken from and its arguments. -/
  | reference (span : Span) (module : Option Name) (name : Name) (arguments : List TypeNode)
  /-- A type pack by its name. -/
  | packReference (span : Span) (name : Name)
  /-- The type of an expression. -/
  | typeof (span : Span) (expression : Expression)
  /-- A function type; the generics are bound in the parameters and the result. -/
  | function (span : Span) (generics : List Name) (parameters : List TypeNode)
      (returns : TypeNode)
  | composite (span : Span) (kind : CompositeType) (parts : List TypeNode)
  deriving BEq, Repr

namespace TypeNode

/-- The extent of a type. -/
def span : TypeNode → Span
  | reference s _ _ _ | packReference s _ | typeof s _ | function s _ _ _ | composite s _ _ => s

/-- The types that a type is made of. -/
def parts : TypeNode → List TypeNode
  | reference _ _ _ arguments => arguments
  | packReference .. | typeof .. => []
  | function _ _ parameters returns => parameters ++ [returns]
  | composite _ _ parts => parts

/-- Whether a type alone between parentheses is still a pack. -/
def isPackMember : TypeNode → Bool
  | packReference .. | composite _ .variadic _ => true
  | _ => false

end TypeNode

/-- A generic parameter of a type declaration. -/
structure GenericParameter where
  span : Span
  name : Name
  variadic : Bool
  default : Option TypeNode
  deriving BEq, Repr

/-! ## Statements -/

/-- The declaration of a type alias. -/
structure TypeDeclaration where
  span : Span
  exported : Bool
  name : Name
  generics : Option (List GenericParameter)
  body : TypeNode
  deriving BEq, Repr

/-- A statement other than `return`. -/
inductive Statement where
  /-- A statement that is not looked into. -/
  | plain (span : Span)
  /-- The declaration of a type function. -/
  | typeFunction (span : Span)
  | localAssignment (span : Span) (names : List Name) (expressions : List Expression)
  | typeDeclaration (declaration : TypeDeclaration)
  deriving BEq, Repr

/-- The extent of a statement. -/
def Statement.span : Statement → Span
  | plain s | typeFunction s | localAssignment s _ _ => s
  | typeDeclaration d => d.span

/-- A `return` with the expressions it returns. -/
structure Return where
  span : Span
  expressions : List Expression
  deriving BEq, Repr

/-- The statements of a block and the `return` that may end it. -/
structure Block where
  statements : List Statement
  last : Option Return
  deriving BEq, Repr

/-- The extents of the statements of a block in order, that of its `return` included. -/
def Block.spans (b : Block) : List Span :=
  b.statements.map Statement.span ++ b.last.toList.map Return.span

/-! ## Chunks -/

/-- A source file: its name, its text and its block. -/
structure Chunk where
  file : Text
  source : List Char
  block : Block
  deriving BEq, Repr

namespace Chunk

/-- The extent of a chunk: all of its source. -/
def span (c : Chunk) : Span := ⟨.start, .endOf c.source⟩

/-- The white space and the comments before the first statement. -/
def leadingTrivia (c : Chunk) : List Char :=
  match c.block.spans.head? with
  | some s => c.source.take s.start.offset
  | none => c.source

/-- What follows the last statement. -/
def trailingTrivia (c : Chunk) : List Char :=
  match c.block.spans.getLast? with
  | some s => c.source.drop s.stop.offset
  | none => []

end Chunk

end TypedLinks.Luau
