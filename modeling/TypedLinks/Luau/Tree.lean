import TypedLinks.Luau.Grammar
import TypedLinks.Luau.Token

/-!
# Parse trees

A parse tree is a derivation: each inner node is a production of the grammar, and the leaves are the
tokens of the source.
-/

namespace TypedLinks.Luau

/-- A parse tree. -/
inductive Tree where
  | leaf (token : Token)
  | node (head : Category) (construct : Construct) (children : List Tree)

namespace Tree

/-- The symbol at the root of a tree. -/
def symbol : Tree → Grammar.Symbol Terminal Category
  | leaf t => .token t.terminal
  | node c _ _ => .category c

mutual

/-- The tokens at the leaves of a tree, from left to right. -/
def tokens : Tree → List Token
  | leaf t => [t]
  | node _ _ children => tokensOf children

/-- The tokens at the leaves of several trees. -/
def tokensOf : List Tree → List Token
  | [] => []
  | t :: ts => t.tokens ++ tokensOf ts

end

end Tree

end TypedLinks.Luau
