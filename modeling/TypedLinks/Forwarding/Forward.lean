import TypedLinks.Forwarding.Scope

/-!
# Forwarding

The declarations with which a link file exports the types of its module again:

    export type Signal<T, U = Connection> = ...                               (in the module)
    export type Signal<T, U = Connection> = REQUIRED_MODULE.Signal<T, U>      (in the link file)

A default is kept if every name in it is visible from the link file; otherwise it is dropped, and
the parameter stays.
-/

namespace TypedLinks

open Luau

/-- The local of a link file that holds the required module. -/
def moduleBinding : Name := "REQUIRED_MODULE".toList

namespace Parameter

/-- Whether a parameter has a default that mentions a name outside a scope. -/
def isDropped (names : List Name) (p : Parameter) : Bool :=
  p.default.any fun d => !d.type.isResolvable names

/-- A parameter without a default that mentions a name outside a scope. -/
def forward (names : List Name) (p : Parameter) : Parameter :=
  if p.isDropped names then { p with default := none } else p

end Parameter

namespace Declaration

/-- The declaration of the same type in a link file in which the given names are visible. -/
def forward (names : List Name) (d : Declaration) : Declaration :=
  ⟨d.name, d.generics.map (·.map (Parameter.forward names)),
    moduleBinding ++ ".".toList ++ d.name ++ angled (d.parameters.map Parameter.reference)⟩

/-- The parameters whose defaults forwarding drops. -/
def dropped (names : List Name) (d : Declaration) : List Parameter :=
  d.parameters.filter (Parameter.isDropped names)

end Declaration

/-- Forwards each declaration in the scope that the declarations before it make. -/
def forwardAfter (earlier : List Declaration) : List Declaration → List Declaration
  | [] => []
  | d :: ds => d.forward (scope earlier d) :: forwardAfter (earlier ++ [d]) ds

/-- Forwards the declarations of a module. -/
def forwardAll (ds : List Declaration) : List Declaration := forwardAfter [] ds

/-- The defaults that forwarding drops: each parameter with its declaration. -/
def droppedAfter (earlier : List Declaration) :
    List Declaration → List (Declaration × Parameter)
  | [] => []
  | d :: ds =>
    (d.dropped (scope earlier d)).map (d, ·) ++ droppedAfter (earlier ++ [d]) ds

/-- The text of a link file: what preceded its first statement, the generated lines, and what
followed its last statement. -/
def renderLink (header require : List Char) (ds : List Declaration) (trailer : List Char)
    (separator : List Char) : List Char :=
  let first := "local ".toList ++ moduleBinding ++ " = ".toList ++ require
  let last := "return ".toList ++ moduleBinding
  header ++ separated separator ([first] ++ ds.map Declaration.render ++ [last]) ++ trailer

end TypedLinks
