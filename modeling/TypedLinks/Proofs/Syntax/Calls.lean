import TypedLinks.Link.Require
import TypedLinks.Proofs.Syntax.Members
import TypedLinks.Proofs.Parsing.Walk

/-!
# Trees of require calls

A require call is the name `require` and its arguments between parentheses. Its tree stands below
nodes that contribute nothing of their own.
-/

namespace TypedLinks.Luau

open Grammar

/-! ## Require calls -/

/-- A require call calls the name `require` with one argument between parentheses. -/
theorem call_of_ofCall {e : Expression} {path : RequirePath} (h : RequirePath.ofCall e = .ok path) :
    ∃ s s' a, e = .call s (.name s' "require".toList) [a] .parentheses := by
  unfold RequirePath.ofCall at h
  split at h
  · rename_i s callee es style
    split at h
    · contradiction
    · rename_i hrequire
      split at h
      · contradiction
      · rename_i hstyle
        split at h
        · rename_i a
          cases callee with
          | name s' w =>
            rw [Bool.not_eq_true, Bool.not_eq_false'] at hrequire
            have hw : w = "require".toList := of_decide_eq_true hrequire
            exact ⟨s, s', a, by rw [hw, Classical.not_not.1 hstyle]⟩
          | _ => exact absurd rfl hrequire
        · contradiction
  · contradiction

namespace Tree

variable {t : Tree} {ts : List Tree} {ps : List Part} {span : Option Span}

theorem productions_expressionList : productions .expressionList =
    [⟨.expressionList, [.category .expression, .category .furtherExpressions]⟩,
      ⟨.expressionList, [.category .expression]⟩] := rfl

theorem productions_furtherExpressions : productions .furtherExpressions =
    [⟨.spliced, [.token .comma, .category .expression]⟩,
      ⟨.spliced, [.category .furtherExpressions, .token .comma, .category .expression]⟩] := rfl

theorem WellFormed.parts_expression (h : t.WellFormed) (ht : t.symbol = .category .expression)
    (hparts : t.parts = .ok (ps, span)) : ∃ e, ps = [.expression e] := by
  have hfits := h.fits hparts
  rw [ht] at hfits
  obtain ⟨p, rfl, hk, -⟩ := hfits
  cases p <;> first | contradiction | exact ⟨_, rfl⟩

/-- Further expressions are at least one. -/
theorem expressions_of_further (h : t.WellFormed) (ht : t.symbol = .category .furtherExpressions)
    (hparts : t.parts = .ok (ps, span)) : ps.filterMap Part.expression? ≠ [] := by
  obtain ⟨l, us, rfl⟩ := symbol_eq_category_iff.1 ht
  have hp := h.production
  obtain ⟨hl, front, X, rfl, hX⟩ : l = .spliced ∧ ∃ front X, us = front ++ [X] ∧
      X.symbol = .category .expression := by
    rw [productions_furtherExpressions] at hp
    simp only [List.mem_cons, List.not_mem_nil, or_false, Production.mk.injEq,
      map_symbol_eq_token_cons, map_symbol_eq_category_cons, List.map_eq_nil_iff] at hp
    rcases hp with ⟨rfl, c, _, rfl, -, X, _, rfl, hX, rfl⟩ |
      ⟨rfl, F, _, rfl, -, c, _, rfl, -, X, _, rfl, hX, rfl⟩
    · exact ⟨rfl, [leaf c], X, rfl, hX⟩
    · exact ⟨rfl, [F, leaf c], X, rfl, hX⟩
  subst hl
  obtain ⟨own, hown, hcontribute⟩ := parts_node_eq_ok.1 hparts
  rw [contribute_spliced] at hcontribute
  cases hcontribute
  obtain ⟨frontParts, _, lastParts, _, -, hlast, rfl, -⟩ := partsOf_append_eq_ok.1 hown
  obtain ⟨e, rfl⟩ := (h.children X (by simp)).parts_expression hX (partsOf_singleton.1 hlast)
  simp [Part.expression?]

/-- A list of one expression is the tree of that expression. -/
theorem expressionList_cases {e : Expression} (h : t.WellFormed)
    (ht : t.symbol = .category .expressionList)
    (hparts : t.parts = .ok ([.expressions [e]], span)) :
    ∃ l X, t = node .expressionList l [X] ∧ X.symbol = .category .expression ∧ X.WellFormed ∧
      X.parts = .ok ([.expression e], span) := by
  obtain ⟨l, us, rfl⟩ := symbol_eq_category_iff.1 ht
  have hp := h.production
  rw [productions_expressionList] at hp
  simp only [List.mem_cons, List.not_mem_nil, or_false, Production.mk.injEq,
    map_symbol_eq_category_cons, List.map_eq_nil_iff] at hp
  have hl : l = .expressionList := by rcases hp with ⟨rfl, -⟩ | ⟨rfl, -⟩ <;> rfl
  subst hl
  obtain ⟨own, hown, hcontribute⟩ := parts_node_eq_ok.1 hparts
  have hes : [e] = own.filterMap Part.expression? := by
    rcases contribute_eq_ok (by decide) hcontribute with ⟨s, p, -, hp, heq⟩ | ⟨-, -, heq⟩
    · obtain rfl := List.singleton_inj.1 heq
      exact (expressions_of_assemble hp).2
    · cases heq
  rcases hp with ⟨-, X, _, rfl, hX, F, _, rfl, hF, rfl⟩ | ⟨-, X, _, rfl, hX, rfl⟩
  · obtain ⟨first, _, others, _, hfirst, hothers, rfl, -⟩ := partsOf_cons_eq_ok.1 hown
    obtain ⟨e', rfl⟩ := (h.children X (by simp)).parts_expression hX hfirst
    have hfurther := expressions_of_further (h.children F (by simp)) hF
      (partsOf_singleton.1 hothers)
    exact absurd (List.cons.inj hes).2.symm hfurther
  · rw [partsOf_singleton] at hown
    have hwell := h.children X (by simp)
    obtain ⟨e', rfl⟩ := hwell.parts_expression hX hown
    cases hes
    exact ⟨_, X, rfl, hX, hwell, hown⟩

/-- Below the nodes of a tree that contribute nothing of their own stands the node that builds its
part. -/
theorem exists_unwrapped {k : PartKind} (h : t.WellFormed)
    (hshape : symbolShape t.symbol = .one k) (hparts : t.parts = .ok (ps, span)) :
    ∃ c l us chain, t = (node c l us).wrap (spliced chain) ∧ (node c l us).WellFormed ∧
      l ≠ .spliced ∧ (node c l us).parts = .ok (ps, span) := by
  induction h with
  | leaf t => cases hshape
  | @node c l us hproduction hchildren ih =>
    by_cases hl : l = .spliced
    · subst hl
      have hfits := List.all_eq_true.1 (List.all_eq_true.1 productions_shape_checked c
        (Category.mem_all c)) _ hproduction
      change c.shape = .one k at hshape
      simp only [fitsShape, hshape, Construct.kind?] at hfits
      split at hfits
      · contradiction
      · rename_i c' _ hbody
        obtain ⟨u, rfl, hu⟩ := List.map_eq_singleton_iff.1 hbody
        obtain ⟨own, hown, hcontribute⟩ := parts_node_eq_ok.1 hparts
        rw [contribute_spliced] at hcontribute
        cases hcontribute
        obtain ⟨c', l', us', chain, rfl, hwell, hl', hparts'⟩ := ih u List.mem_cons_self
          (by rw [hu]; exact of_decide_eq_true hfits) (partsOf_singleton.1 hown)
        refine ⟨c', l', us', chain ++ [c], ?_, hwell, hl', hparts'⟩
        have hchain : spliced (chain ++ [c]) = spliced chain ++ [(c, .spliced)] := List.map_append
        rw [hchain, wrap_append]
        rfl
      · contradiction
    · exact ⟨c, l, us, [], rfl, .node hproduction hchildren, hl, hparts⟩

/-- The tree of a call of a name. -/
def callTree (name : Token) (arguments : List Tree) : Tree :=
  node .suffixedExpression .call
    [(node .nameExpression .name [leaf name]).wrap (spliced [.primaryExpression, .suffixedExpression]),
      node .callArguments .parenthesizedArguments arguments]

theorem productions_call_checked :
    ∀ c ∈ Category.all, ∀ p ∈ productions c, p.construct = .call →
      c = .suffixedExpression ∧
        p.body = [.category .suffixedExpression, .category .callArguments] := by
  decide

theorem productions_name_checked :
    ∀ c ∈ Category.all, ∀ p ∈ productions c, p.construct = .name →
      c = .nameExpression ∧ p.body.all (· matches .token _) ∧ p.body.length = 1 := by
  decide

theorem productions_callArguments : productions .callArguments =
    [⟨.parenthesizedArguments, [.token .leftParen, .category .expressionList, .token .rightParen]⟩,
      ⟨.parenthesizedArguments, [.token .leftParen, .token .rightParen]⟩,
      ⟨.tableArguments, [.category .tableConstructor]⟩,
      ⟨.stringArguments, [.category .string]⟩] := rfl

/-- A node that contributes a name has a token alone, or contributes what its children do. -/
theorem node_of_name {c : Category} {l : Construct} {s : Span} {w : Name}
    (h : WellFormed (node c l ts))
    (hparts : (node c l ts).parts = .ok ([.expression (.name s w)], span)) :
    (c = .nameExpression ∧ l = .name ∧ ∃ tok, ts = [leaf tok] ∧ tok.text = w) ∨
      l = .spliced ∧ partsOf ts = .ok ([.expression (.name s w)], span) := by
  obtain ⟨own, hown, hcontribute⟩ := parts_node_eq_ok.1 hparts
  by_cases hl : l = .spliced
  · subst hl
    rw [contribute_spliced] at hcontribute
    cases hcontribute
    exact .inr ⟨rfl, hown⟩
  · rcases contribute_eq_ok hl hcontribute with ⟨s', p, rfl, hp, heq⟩ | ⟨-, -, heq⟩
    · obtain rfl := List.singleton_inj.1 heq
      rcases expression_of_assemble hp with ⟨-, _, _, _, -, he⟩ | ⟨rfl, t, rfl, he⟩ | ⟨-, hname⟩
      · cases he
      · cases he
        obtain ⟨hc, htokens, hlength⟩ := productions_name_checked c (Category.mem_all c) _
          h.production rfl
        obtain ⟨u, rfl⟩ := List.length_eq_one_iff.1 (by simpa using hlength)
        cases u with
        | leaf tok =>
          rw [partsOf_leaf_cons_eq_ok] at hown
          obtain ⟨others, s'', hnil, hown, -⟩ := hown
          cases hnil
          refine .inl ⟨hc, rfl, tok, rfl, ?_⟩
          split at hown
          · cases hown
            rfl
          · contradiction
        | node c' l' us => simp [symbol] at htokens
      · exact absurd rfl (hname _ _)
    · cases heq

/-- A tree that contributes a name and may be called is a chain of nodes above a token. -/
theorem callee_cases {s : Span} {w : Name} (h : t.WellFormed)
    (ht : t.symbol = .category .suffixedExpression)
    (hparts : t.parts = .ok ([.expression (.name s w)], span)) :
    ∃ tok, tok.text = w ∧ tok.terminal ∈ [Terminal.name, .kwType, .kwExport, .kwContinue] ∧
      t = (node .nameExpression .name [leaf tok]).wrap
        (spliced [.primaryExpression, .suffixedExpression]) := by
  obtain ⟨l, ts, rfl⟩ := symbol_eq_category_iff.1 ht
  rcases node_of_name h hparts with ⟨hc, -⟩ | ⟨rfl, hown⟩
  · cases hc
  · obtain ⟨P, rfl, hP⟩ : ∃ P, ts = [P] ∧ P.symbol = .category .primaryExpression := by
      have hchecked : ∀ p ∈ productions .suffixedExpression, p.construct = .spliced →
          p.body = [.category .primaryExpression] := by decide
      exact List.map_eq_singleton_iff.1 (hchecked _ h.production rfl)
    obtain ⟨l, us, rfl⟩ := symbol_eq_category_iff.1 hP
    have hwell := h.children _ List.mem_cons_self
    rcases node_of_name hwell (partsOf_singleton.1 hown) with ⟨hc, -⟩ | ⟨rfl, hown'⟩
    · cases hc
    · obtain ⟨N, rfl, hN⟩ : ∃ N, us = [N] ∧ N.symbol = .category .nameExpression := by
        have hchecked : ∀ p ∈ productions .primaryExpression, p.construct = .spliced →
            p.body = [.category .nameExpression] := by decide
        exact List.map_eq_singleton_iff.1 (hchecked _ hwell.production rfl)
      obtain ⟨l, vs, rfl⟩ := symbol_eq_category_iff.1 hN
      have hwell := hwell.children _ List.mem_cons_self
      rcases node_of_name hwell (partsOf_singleton.1 hown') with ⟨-, rfl, tok, rfl, hw⟩ | ⟨rfl, -⟩
      · have hchecked : ∀ p ∈ productions .nameExpression, ∀ x, p.body = [.token x] →
            x ∈ [Terminal.name, .kwType, .kwExport, .kwContinue] := by
          intro p hp x hx
          have hp' : p.body ∈ (productions .nameExpression).map (·.body) := List.mem_map_of_mem hp
          rw [hx] at hp'
          simpa [productions, rule, Rule.productions, Ebnf.forms, Side.words, Ebnf.oneOf, Side.t,
            Ebnf.token] using hp'
        exact ⟨tok, hw, hchecked _ hwell.production _ rfl, rfl⟩
      · have hchecked : ∀ p ∈ productions .nameExpression, p.construct = .name := by decide
        cases hchecked _ hwell.production

/-- The arguments of a call in parentheses, if they stand in them. -/
theorem arguments_cases {A : Tree} (h : A.WellFormed) (hA : A.symbol = .category .callArguments)
    {es : List Expression} (hparts : A.parts = .ok ([.arguments es .parentheses], span)) :
    ∃ lp ts rp, A = node .callArguments .parenthesizedArguments (leaf lp :: (ts ++ [leaf rp])) ∧
      lp.terminal = .leftParen ∧ rp.terminal = .rightParen := by
  obtain ⟨l, us, rfl⟩ := symbol_eq_category_iff.1 hA
  have hp := h.production
  have hl : l = .parenthesizedArguments := by
    obtain ⟨own, -, hcontribute⟩ := parts_node_eq_ok.1 hparts
    have hspliced : l ≠ .spliced := by
      rintro rfl
      simp [productions_callArguments] at hp
    rcases contribute_eq_ok hspliced hcontribute with ⟨s, p, -, hp, heq⟩ | ⟨-, -, heq⟩
    · obtain rfl := List.singleton_inj.1 heq
      exact arguments_of_assemble hp
    · cases heq
  subst hl
  rw [productions_callArguments] at hp
  simp only [List.mem_cons, List.not_mem_nil, or_false, Production.mk.injEq, reduceCtorEq,
    false_and, true_and, map_symbol_eq_token_cons, map_symbol_eq_category_cons,
    List.map_eq_nil_iff] at hp
  rcases hp with ⟨lp, _, rfl, hlp, E, _, rfl, -, rp, _, rfl, hrp, rfl⟩ |
    ⟨lp, _, rfl, hlp, rp, _, rfl, hrp, rfl⟩
  · exact ⟨lp, [E], rp, rfl, hlp, hrp⟩
  · exact ⟨lp, [], rp, rfl, hlp, hrp⟩

/-- The tree of a require call. -/
theorem call_cases {e : Expression} {path : RequirePath} (h : t.WellFormed)
    (hshape : symbolShape t.symbol = .one .expression)
    (hparts : t.parts = .ok ([.expression e], span)) (hpath : RequirePath.ofCall e = .ok path) :
    ∃ tok lp es rp chain,
      t = (callTree tok (leaf lp :: (es ++ [leaf rp]))).wrap (spliced chain) ∧
        tok.text = "require".toList ∧
        tok.terminal ∈ [Terminal.name, .kwType, .kwExport, .kwContinue] ∧
        lp.terminal = .leftParen ∧ rp.terminal = .rightParen ∧
        (callTree tok (leaf lp :: (es ++ [leaf rp]))).parts = .ok ([.expression e], span) := by
  obtain ⟨s, s', a, rfl⟩ := call_of_ofCall hpath
  obtain ⟨c, l, ts, chain, rfl, hwell, hl, hparts⟩ := exists_unwrapped h hshape hparts
  obtain ⟨own, hown, hcontribute⟩ := parts_node_eq_ok.1 hparts
  rcases contribute_eq_ok hl hcontribute with ⟨s', p, rfl, hp, heq⟩ | ⟨-, -, heq⟩
  · obtain rfl := List.singleton_inj.1 heq
    rcases expression_of_assemble hp with ⟨rfl, _, _, _, rfl, he⟩ | ⟨-, _, -, he⟩ | ⟨hcall, -⟩
    · cases he
      obtain ⟨rfl, hbody⟩ := productions_call_checked c (Category.mem_all c) _ hwell.production rfl
      obtain ⟨C, _, rfl, hC, hrest⟩ := map_symbol_eq_category_cons.1 hbody
      obtain ⟨A, rfl, hA⟩ := List.map_eq_singleton_iff.1 hrest
      obtain ⟨first, s₁, others, s₂, hfirst, hothers, happend, -⟩ := partsOf_cons_eq_ok.1 hown
      rw [partsOf_singleton] at hothers
      have hfitsC := (hwell.children C (by simp)).fits hfirst
      have hfitsA := (hwell.children A (by simp)).fits hothers
      rw [hC] at hfitsC
      rw [hA] at hfitsA
      obtain ⟨p, rfl, -, -⟩ := hfitsC
      obtain ⟨p', rfl, -, -⟩ := hfitsA
      cases happend
      obtain ⟨tok, htok, hterminal, rfl⟩ := callee_cases (hwell.children C (by simp)) hC hfirst
      obtain ⟨lp, us, rp, rfl, hlp, hrp⟩ :=
        arguments_cases (hwell.children A (by simp)) hA hothers
      exact ⟨tok, lp, us, rp, chain, rfl, htok, hterminal, hlp, hrp, hparts⟩
    · cases he
    · exact absurd rfl (hcall _ _ _ _)
  · cases heq

end Tree

end TypedLinks.Luau
