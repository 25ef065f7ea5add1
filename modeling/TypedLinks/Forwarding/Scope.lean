import TypedLinks.Forwarding.Declaration

/-!
# Scopes

Which type names are visible in a link file, and whether a type mentions only such names. A name
that a function type binds is visible inside it; a name taken from a module never is, nor anything
in the type of an expression, since both belong to the scope of the module.
-/

namespace TypedLinks

open Luau

/-- The type names that are visible everywhere. -/
def builtinNames : List Name :=
  ["any", "boolean", "buffer", "never", "nil", "number", "string", "thread", "unknown", "userdata",
    "vector"].map String.toList

/-- The boolean values that are types. -/
def booleanNames : List Name := ["true", "false"].map String.toList

/-- The names that a default of `declaration` may mention in a link file: the built-in ones, the
types forwarded before it, its own name and its parameters. -/
def scope (earlier : List Declaration) (declaration : Declaration) : List Name :=
  builtinNames ++ booleanNames ++ earlier.map (·.name) ++ [declaration.name] ++
    declaration.parameters.map (·.name)

namespace Luau.TypeNode

mutual

/-- Whether every name that a type mentions is among the given ones. -/
def isResolvable (names : List Name) : TypeNode → Bool
  | reference _ module name arguments =>
    module.isNone && names.contains name && allResolvable names arguments
  | packReference _ name => names.contains name
  | typeof .. => false
  | function _ generics parameters returns =>
    allResolvable (names ++ generics) parameters && returns.isResolvable (names ++ generics)
  | composite _ _ parts => allResolvable names parts

/-- Whether every name that some types mention is among the given ones. -/
def allResolvable (names : List Name) : List TypeNode → Bool
  | [] => true
  | t :: ts => t.isResolvable names && allResolvable names ts

end

end Luau.TypeNode

end TypedLinks
