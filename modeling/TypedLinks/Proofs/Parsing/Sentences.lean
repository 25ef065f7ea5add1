import Mathlib.Logic.Relation
import TypedLinks.Proofs.Parsing.Derivation
import TypedLinks.Proofs.Syntax.Members

/-!
# Sentences of the grammar

The usual reading of the rules, next to the plain productions that the parser works with: a choice is
one of its sides, an optional part is there or is not, and a series is its body once or more often. A
sentence is what a category becomes when categories are replaced by what their rules read as, until
only tokens are left. A well-formed tree is such a derivation, of the tokens at its leaves.
-/

namespace TypedLinks

namespace Grammar

variable {T C L : Type}

/-! ## Reading rules -/

/-- The sequences of symbols that a right-hand side reads as. -/
inductive Ebnf.Reads : Ebnf T C → List (Symbol T C) → Prop where
  | symbol (s : Symbol T C) : Reads (.symbol s) [s]
  | seq {a b : Ebnf T C} {v w : List (Symbol T C)} (left : Reads a v) (right : Reads b w) :
      Reads (.seq a b) (v ++ w)
  | left {a b : Ebnf T C} {v : List (Symbol T C)} (left : Reads a v) : Reads (.either a b) v
  | right {a b : Ebnf T C} {w : List (Symbol T C)} (right : Reads b w) : Reads (.either a b) w
  | present {a : Ebnf T C} {v : List (Symbol T C)} (body : Reads a v) : Reads (.optional a) v
  | absent (a : Ebnf T C) : Reads (.optional a) []
  | empty : Reads .empty []

theorem Ebnf.reads_of_mem_forms {e : Ebnf T C} {w : List (Symbol T C)} (h : w ∈ e.forms) :
    e.Reads w := by
  induction e generalizing w with
  | symbol s =>
    rw [forms, List.mem_singleton] at h
    subst h
    exact .symbol s
  | seq a b iha ihb =>
    simp only [forms, List.mem_flatMap, List.mem_map] at h
    obtain ⟨v, hv, u, hu, rfl⟩ := h
    exact .seq (iha hv) (ihb hu)
  | either a b iha ihb =>
    rw [forms, List.mem_append] at h
    exact h.elim (fun h => .left (iha h)) (fun h => .right (ihb h))
  | optional a ih =>
    rw [forms, List.mem_append, List.mem_singleton] at h
    rcases h with h | rfl
    · exact .present (ih h)
    · exact .absent a
  | empty =>
    rw [forms, List.mem_singleton] at h
    subst h
    exact .empty

/-- The sequences of symbols that a category with a rule may be replaced by. -/
inductive Rule.Expands : Rule T C L → List (Symbol T C) → Prop where
  | choice {alternatives : List (L × Ebnf T C)} {construct : L} {side : Ebnf T C}
      {w : List (Symbol T C)} (mem : (construct, side) ∈ alternatives) (reads : side.Reads w) :
      Expands (.choice alternatives) w
  | once {body : Ebnf T C} {w : List (Symbol T C)} (reads : body.Reads w) :
      Expands (.series body) w
  | again {body : Ebnf T C} {v w : List (Symbol T C)} (before : Expands (.series body) v)
      (reads : body.Reads w) : Expands (.series body) (v ++ w)

end Grammar

namespace Luau

open Grammar

/-! ## Derivations by rewriting -/

/-- One category in a row of symbols is replaced by what its rule reads as. -/
inductive Rewrites : List GrammarSymbol → List GrammarSymbol → Prop where
  | category {c : Category} {w : List GrammarSymbol} (v u : List GrammarSymbol)
      (expands : (rule c).Expands w) : Rewrites (v ++ .category c :: u) (v ++ w ++ u)

/-- Categories are replaced one after the other. -/
def Derives : List GrammarSymbol → List GrammarSymbol → Prop := Relation.ReflTransGen Rewrites

namespace Derives

variable {v w x y : List GrammarSymbol}

theorem around (h : Derives v w) (x y : List GrammarSymbol) :
    Derives (x ++ v ++ y) (x ++ w ++ y) := by
  have hstep {v w : List GrammarSymbol} (h : Rewrites v w) :
      Rewrites (x ++ v ++ y) (x ++ w ++ y) := by
    obtain ⟨v, u, hexpands⟩ := h
    simpa only [List.append_assoc, List.cons_append] using
      Rewrites.category (x ++ v) (u ++ y) hexpands
  induction h with
  | refl => exact .refl
  | tail _ hlast ih => exact ih.tail (hstep hlast)

theorem append (h : Derives v w) (h' : Derives x y) : Derives (v ++ x) (w ++ y) := by
  have hfirst := h.around [] x
  have hsecond := h'.around w []
  rw [List.append_nil, List.append_nil] at hsecond
  exact hfirst.trans hsecond

theorem of_expands {c : Category} (h : (rule c).Expands w) : Derives [.category c] w := by
  have hsingle : Derives ([] ++ [.category c]) ([] ++ w ++ []) :=
    Relation.ReflTransGen.single (.category [] [] h)
  rwa [List.append_nil] at hsingle

end Derives

/-! ## Derivation trees -/

namespace Tree

/-- The children of a node with the repetitions of a series next to each other. -/
def unrolled (c : Category) (ts : List Tree) : List Tree :=
  match rule c with
  | .choice _ => ts
  | .series _ => membersOf c ts

/-- Whether the rule of every node reads as its children. -/
inductive IsDerivation : Tree → Prop where
  | leaf (t : Token) : IsDerivation (.leaf t)
  | node {c : Category} {l : Construct} {ts : List Tree}
      (expands : (rule c).Expands ((unrolled c ts).map symbol))
      (children : ∀ t ∈ unrolled c ts, IsDerivation t) : IsDerivation (.node c l ts)

mutual

theorem tokensOf_members (c : Category) (t : Tree) : tokensOf (t.members c) = t.tokens := by
  match t with
  | leaf t => rfl
  | node c' l ts =>
    rw [members]
    split
    · exact tokensOf_membersOf c ts
    · simp [tokensOf]

theorem tokensOf_membersOf (c : Category) (ts : List Tree) :
    tokensOf (membersOf c ts) = tokensOf ts := by
  match ts with
  | [] => rfl
  | t :: ts =>
    rw [membersOf, tokensOf_append, tokensOf_members, tokensOf_membersOf, tokensOf]

end

theorem tokensOf_unrolled (c : Category) (ts : List Tree) :
    tokensOf (unrolled c ts) = tokensOf ts := by
  unfold unrolled
  split
  · rfl
  · exact tokensOf_membersOf c ts

/-- The tokens of a row of trees as symbols. -/
def sentence (ts : List Tree) : List GrammarSymbol := (tokensOf ts).map fun t => .token t.terminal

theorem derives_sentence {ts : List Tree} (h : ∀ t ∈ ts, Derives [t.symbol] (sentence [t])) :
    Derives (ts.map symbol) (sentence ts) := by
  induction ts with
  | nil => exact .refl
  | cons t ts ih =>
    rw [List.forall_mem_cons] at h
    have happend := h.1.append (ih h.2)
    rwa [sentence, sentence, ← List.map_append, ← tokensOf_append] at happend

/-- A derivation tree is a derivation of the tokens at its leaves from its root. -/
theorem IsDerivation.derives {t : Tree} (h : t.IsDerivation) :
    Derives [t.symbol] (sentence [t]) := by
  induction h with
  | leaf t => exact .refl
  | @node c l ts hexpands _ ih =>
    have hchildren := derives_sentence ih
    rw [sentence, tokensOf_unrolled] at hchildren
    rw [sentence, tokensOf, tokens, tokensOf, List.append_nil]
    exact (Derives.of_expands hexpands).trans hchildren

/-! ## Well-formed trees -/

theorem series_bodies_checked :
    (Category.all.all fun c => match rule c with
      | .choice _ => true
      | .series body => body.forms.all fun w => !w.contains (.category c)) = true := by
  decide

/-- The body of a series does not mention the series. -/
theorem not_mem_body_of_series {c : Category} {body : Side} (hrule : rule c = .series body)
    {w : List GrammarSymbol} (hw : w ∈ body.forms) : .category c ∉ w := by
  have h := List.all_eq_true.1 series_bodies_checked c (Category.mem_all c)
  rw [hrule] at h
  simpa using List.all_eq_true.1 h w hw

theorem membersOf_of_symbols {c : Category} {ts : List Tree}
    (h : .category c ∉ ts.map symbol) : membersOf c ts = ts := by
  induction ts with
  | nil => rfl
  | cons t ts ih =>
    rw [List.map_cons, List.mem_cons, not_or] at h
    have hself : t.members c = [t] := by
      cases t with
      | leaf t => rfl
      | node c' l us =>
        rw [members, if_neg]
        rintro rfl
        exact h.1 rfl
    rw [membersOf, hself, ih h.2, List.singleton_append]

/-- The members of a series are its body once or more often. -/
theorem WellFormed.expands_members {t : Tree} (h : t.WellFormed) {c : Category} {body : Side}
    (hrule : rule c = .series body) (hsymbol : t.symbol = .category c) :
    (rule c).Expands ((t.members c).map symbol) := by
  induction h with
  | leaf t => cases hsymbol
  | @node c' l ts hproduction _ ih =>
    cases hsymbol
    rw [members, if_pos rfl, hrule]
    rw [productions, hrule, Rule.productions, List.mem_append, List.mem_map, List.mem_map]
      at hproduction
    rcases hproduction with ⟨w, hw, heq⟩ | ⟨w, hw, heq⟩
    · obtain ⟨-, hts⟩ := Production.mk.inj heq
      have hnot := not_mem_body_of_series hrule hw
      rw [hts] at hnot
      rw [membersOf_of_symbols hnot, ← hts]
      exact .once (Ebnf.reads_of_mem_forms hw)
    · obtain ⟨-, hts⟩ := Production.mk.inj heq
      obtain ⟨t, us, rfl, ht, hus⟩ := map_symbol_eq_category_cons.1 hts.symm
      have hnot := not_mem_body_of_series hrule hw
      rw [← hus] at hnot
      have hbefore := ih t List.mem_cons_self ht
      rw [hrule] at hbefore
      rw [membersOf, membersOf_of_symbols hnot, List.map_append, hus]
      exact .again hbefore (Ebnf.reads_of_mem_forms hw)

/-- The children of a well-formed node are what its rule reads as. -/
theorem WellFormed.expands {c : Category} {l : Construct} {ts : List Tree}
    (h : WellFormed (.node c l ts)) : (rule c).Expands ((unrolled c ts).map symbol) := by
  have hproduction := h.production
  unfold unrolled
  cases hrule : rule c with
  | choice alternatives =>
    rw [productions, hrule, Rule.productions, List.mem_flatMap] at hproduction
    obtain ⟨⟨l', side⟩, hmem, hform⟩ := hproduction
    obtain ⟨w, hw, heq⟩ := List.mem_map.1 hform
    obtain ⟨-, hts⟩ := Production.mk.inj heq
    rw [← hts]
    exact .choice hmem (Ebnf.reads_of_mem_forms hw)
  | series body =>
    have hmembers := h.expands_members hrule rfl
    rwa [members, if_pos rfl, hrule] at hmembers

/-- The members of a well-formed tree are derivations if the tree is one. -/
theorem WellFormed.isDerivation_and_members {t : Tree} (h : t.WellFormed) :
    t.IsDerivation ∧ ∀ c, ∀ u ∈ t.members c, u.IsDerivation := by
  induction h with
  | leaf t =>
    refine ⟨.leaf t, fun c u hu => ?_⟩
    rw [members, List.mem_singleton] at hu
    subst hu
    exact .leaf t
  | @node c l ts hproduction hchildren ih =>
    have hmembers (c' : Category) : ∀ u ∈ membersOf c' ts, u.IsDerivation := by
      intro u hu
      obtain ⟨t, ht, hu⟩ := mem_membersOf.1 hu
      exact (ih t ht).2 c' u hu
    have hself : IsDerivation (.node c l ts) := by
      refine .node (WellFormed.node hproduction hchildren).expands fun t ht => ?_
      unfold unrolled at ht
      split at ht
      · exact (ih t ht).1
      · exact hmembers c t ht
    refine ⟨hself, fun c' u hu => ?_⟩
    rw [members] at hu
    split at hu
    · exact hmembers c' u hu
    · rw [List.mem_singleton] at hu
      subst hu
      exact hself

theorem WellFormed.isDerivation {t : Tree} (h : t.WellFormed) : t.IsDerivation :=
  h.isDerivation_and_members.1

end Tree

end Luau

end TypedLinks
