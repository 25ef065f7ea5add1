import TypedLinks.Sourcemap.Node

/-!
# The owner of a file

The first instance that lists a file, in the order in which an instance comes before its children
and these come from left to right. The places that are still to be looked at are kept in a list; the
children of a place that does not list the file are put before the rest.
-/

namespace TypedLinks

namespace Chain

/-- The places of the children of a place. -/
def below (c : Chain) : List Chain := c.node.children.map c.down

/-- The first of some places or of those below them that lists a file, after at most a number of
looks. -/
def search (p : Path) : Nat → List Chain → Option Chain
  | 0, _ => none
  | _ + 1, [] => none
  | looks + 1, c :: rest =>
    if c.node.paths.contains p then some c else search p looks (c.below ++ rest)

end Chain

/-- The place of the first instance of a tree that lists a file. Each instance is looked at once at
most. -/
def Node.owner? (tree : Node) (p : Path) : Option Chain := Chain.search p tree.size [⟨tree, []⟩]

end TypedLinks
