import TypedLinks.Path

/-!
# The sourcemap

The tree of instances that a project builds into. An instance has a name, a class, the files that
make it up, and children in order; two children may share a name.
-/

namespace TypedLinks

/-- An instance of the sourcemap. -/
inductive Node where
  | mk (name className : Text) (paths : List Path) (children : List Node)

namespace Node

/-- The name of an instance. -/
def name : Node → Text
  | mk name _ _ _ => name

/-- The class of an instance. -/
def className : Node → Text
  | mk _ className _ _ => className

/-- The files that make up an instance. -/
def paths : Node → List Path
  | mk _ _ paths _ => paths

/-- The children of an instance. -/
def children : Node → List Node
  | mk _ _ _ children => children

/-- The first child of a name. -/
def child? (n : Node) (name : Text) : Option Node := n.children.find? (·.name = name)

/-- The first of the files of an instance that is a module. -/
def moduleFile? (n : Node) : Option Path := n.paths.find? Path.isModuleFile

mutual

/-- The number of instances in a tree. -/
def size : Node → Nat
  | mk _ _ _ children => 1 + sizes children

/-- The number of instances in some trees. -/
def sizes : List Node → Nat
  | [] => 0
  | n :: ns => n.size + sizes ns

end

mutual

/-- The tree with another path in the place of each; an instance's own paths come first, then those
of its children in order. -/
def mapPaths {m : Type → Type} [Monad m] (f : Path → m Path) : Node → m Node
  | mk name className paths children => do
    let paths ← paths.mapM f
    let children ← mapEachPaths f children
    return mk name className paths children

/-- The trees with another path in the place of each. -/
def mapEachPaths {m : Type → Type} [Monad m] (f : Path → m Path) : List Node → m (List Node)
  | [] => return []
  | n :: ns => do
    let n ← n.mapPaths f
    let ns ← mapEachPaths f ns
    return n :: ns

end

end Node

/-! ## Chains -/

/-- The separator between the names of a chain. -/
def chainSeparator : Text := "."

/-- A place in a tree: an instance and the instances above it, the nearest first. -/
structure Chain where
  node : Node
  ancestors : List Node := []

namespace Chain

/-- The place of a child. -/
def down (c : Chain) (child : Node) : Chain := ⟨child, c.node :: c.ancestors⟩

/-- The place above, if there is one. -/
def up? (c : Chain) : Option Chain :=
  match c.ancestors with
  | [] => none
  | parent :: ancestors => some ⟨parent, ancestors⟩

/-- The instances of a chain from the root on. -/
def nodes (c : Chain) : List Node := c.ancestors.reverse ++ [c.node]

/-- The names of a chain. -/
def text (c : Chain) : Text := Text.join chainSeparator (c.nodes.map Node.name)

end Chain

end TypedLinks
