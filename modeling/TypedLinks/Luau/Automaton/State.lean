import TypedLinks.Luau.Grammar

/-!
# States of the parsing automaton

The automaton is the LALR(1) automaton of the grammar. A state is entered by one symbol only, and
its record says from which states; so a move on a symbol is found among the records listed for that
symbol (`afterToken`, `afterCategory`), and no other table is needed. Sets of states and sets of
lookaheads are bit sets.

Where a token can be shifted it is not listed as a lookahead of a reduction, and where two
reductions would compete for a lookahead, only that of `continueStatement` lists it. So at most one
action applies to each lookahead.
-/

namespace TypedLinks.Luau

/-- A place in a production: an alternative of a category, with the number of symbols passed. -/
structure Item where
  category : Category
  alternative : Nat
  passed : Nat
  deriving DecidableEq, Repr

/-- A reduction: the last `size` symbols form a `head` by a production that builds `construct`, if
one of the `lookaheads` follows. -/
structure Reduction where
  head : Category
  construct : Construct
  size : Nat
  lookaheads : Nat
  deriving DecidableEq, Repr

/-- A state: its number, the set of the states from which it is entered, the places in productions
at which the parser may stand when it is entered, and the reductions it allows. -/
structure State where
  number : Nat
  sources : Nat
  items : List Item
  reductions : List Reduction
  deriving DecidableEq, Repr

/-- The bit of a lookahead: that of the end of the source is 0. -/
def lookaheadBit : Option Terminal → Nat
  | none => 0
  | some t => t.index + 1

/-- Whether a reduction is allowed before a lookahead. -/
def Reduction.allows (r : Reduction) (lookahead : Option Terminal) : Bool :=
  r.lookaheads.testBit (lookaheadBit lookahead)

/-- The reduction that a state allows before a lookahead. -/
def State.reduction? (q : State) (lookahead : Option Terminal) : Option Reduction :=
  q.reductions.find? (·.allows lookahead)

/-- Whether a state is entered from another one. -/
def State.follows (next q : State) : Bool := next.sources.testBit q.number

/-- The state in which parsing starts: it expects a block, which may be empty. -/
def State.initial : State := ⟨0, 0, [⟨.chunk, 0, 0⟩], [⟨.block, .block, 0, 0x1⟩]⟩

end TypedLinks.Luau
