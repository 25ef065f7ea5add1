import TypedLinks.Diagnostic.Problem
import TypedLinks.Luau.Syntax

/-!
# Exported types

The exported type aliases of a module, and how a declaration is written.
-/

namespace TypedLinks

open Luau

/-- The default of a generic parameter: its syntax and its text. -/
structure DefaultType where
  type : TypeNode
  text : List Char
  deriving BEq

/-- A generic parameter of an exported type. -/
structure Parameter where
  name : Name
  variadic : Bool
  default : Option DefaultType
  deriving BEq

namespace Parameter

/-- A parameter as it is applied. -/
def reference (p : Parameter) : List Char := if p.variadic then p.name ++ "...".toList else p.name

/-- A parameter as it is declared. -/
def render (p : Parameter) : List Char :=
  match p.default with
  | some d => p.reference ++ " = ".toList ++ d.text
  | none => p.reference

/-- The parameter that a node of a source declares. -/
def ofSyntax (source : List Char) (g : GenericParameter) : Parameter :=
  ⟨g.name, g.variadic, g.default.map fun type => ⟨type, type.span.text source⟩⟩

end Parameter

/-- An exported type alias. The body is the text of the aliased type. -/
structure Declaration where
  name : Name
  generics : Option (List Parameter)
  body : List Char
  deriving BEq

/-- Texts with a separator between neighbours. -/
def separated (separator : List Char) (texts : List (List Char)) : List Char :=
  (texts.intersperse separator).flatten

namespace Declaration

/-- The generic parameters, if any. -/
def parameters (d : Declaration) : List Parameter := d.generics.getD []

/-- A list of parameters between angle brackets; nothing if it is empty. -/
def angled (parameters : List (List Char)) : List Char :=
  if parameters.isEmpty then []
  else "<".toList ++ separated ", ".toList parameters ++ ">".toList

/-- The text of a declaration. -/
def render (d : Declaration) : List Char :=
  "export type ".toList ++ d.name ++ angled (d.parameters.map Parameter.render) ++ " = ".toList ++
    d.body

/-- The declaration that a node of a source makes. -/
def ofSyntax (source : List Char) (t : TypeDeclaration) : Declaration :=
  ⟨t.name, t.generics.map (·.map (Parameter.ofSyntax source)), t.body.span.text source⟩

end Declaration

/-- The exported type alias of a statement. -/
def Luau.Statement.exported? : Statement → Option TypeDeclaration
  | .typeDeclaration d => if d.exported then some d else none
  | _ => none

/-- The exported type aliases at the top level of a chunk, in order. -/
def Luau.Chunk.exports (c : Chunk) : List Declaration :=
  (c.block.statements.filterMap Statement.exported?).map (Declaration.ofSyntax c.source)

/-- The problem of a module with a syntax error. -/
def unparsedModule (file : Text) (p : Problem) : Problem :=
  { kind := .typeExtraction
    message := "could not parse `" ++ file ++ "`: " ++ p.message
    location := p.location
    source := p.source }

end TypedLinks
