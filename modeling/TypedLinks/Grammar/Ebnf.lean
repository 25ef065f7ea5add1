/-!
# Grammars in extended form

A rule of a grammar is a choice between alternatives, each a sequence of symbols with nested choices
and optional parts, or a series: one or more repetitions of a body. `Rule.productions` multiplies
the choices out into plain productions; a series becomes left-recursive.
-/

namespace TypedLinks.Grammar

/-- A terminal, or a category that is defined by a rule. -/
inductive Symbol (T C : Type) where
  | token (t : T)
  | category (c : C)
  deriving DecidableEq, Repr

/-- The right-hand side of a rule. -/
inductive Ebnf (T C : Type) where
  | symbol (s : Symbol T C)
  | seq (left right : Ebnf T C)
  | either (left right : Ebnf T C)
  | optional (body : Ebnf T C)
  | empty

namespace Ebnf

variable {T C : Type}

/-- A right-hand side that is one terminal. -/
def token (t : T) : Ebnf T C := .symbol (.token t)

/-- A right-hand side that is one category. -/
def category (c : C) : Ebnf T C := .symbol (.category c)

instance : Append (Ebnf T C) := ⟨seq⟩

/-- The first side or one of the others. -/
def oneOf (first : Ebnf T C) : List (Ebnf T C) → Ebnf T C
  | [] => first
  | e :: es => .either first (oneOf e es)

/-- The plain sequences of symbols that a right-hand side stands for; an optional part is first
taken, then left out. -/
def forms : Ebnf T C → List (List (Symbol T C))
  | symbol s => [[s]]
  | seq a b => a.forms.flatMap fun l => b.forms.map (l ++ ·)
  | either a b => a.forms ++ b.forms
  | optional a => a.forms ++ [[]]
  | empty => [[]]

end Ebnf

/-- A rule: alternatives, each with the construct it builds, or one or more of a body. -/
inductive Rule (T C L : Type) where
  | choice (alternatives : List (L × Ebnf T C))
  | series (body : Ebnf T C)

/-- A plain production: a sequence of symbols and the construct that it builds. -/
structure Production (T C L : Type) where
  construct : L
  body : List (Symbol T C)

/-- The productions of the rule of category `c`. The steps of a series build `spliced`: they add to
the parent of the series and make no construct of their own. -/
def Rule.productions {T C L : Type} (spliced : L) (c : C) : Rule T C L → List (Production T C L)
  | choice alternatives => alternatives.flatMap fun a => a.2.forms.map (⟨a.1, ·⟩)
  | series body =>
    body.forms.map (⟨spliced, ·⟩) ++ body.forms.map (⟨spliced, .category c :: ·⟩)

end TypedLinks.Grammar
