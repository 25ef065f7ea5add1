import TypedLinks.Proofs.Parsing.Extent
import TypedLinks.Proofs.Syntax.Nodes

/-!
# Before and behind the statements

What a source holds before its first and behind its last statement: the gap at its start, and the gap
at its end.
-/

namespace TypedLinks.Luau

open Grammar

namespace Tree

variable {t : Tree} {ts : List Tree} {ps own : List Part} {span : Option Span}

theorem productions_statements : productions .statements =
    [⟨.spliced, [.category .statement, .token .semicolon]⟩, ⟨.spliced, [.category .statement]⟩,
      ⟨.spliced, [.category .statements, .category .statement, .token .semicolon]⟩,
      ⟨.spliced, [.category .statements, .category .statement]⟩] := rfl

/-- The first part of a series of statements is a statement that starts where the series does. -/
theorem first_of_statements (h : t.WellFormed) (ht : t.symbol = .category .statements)
    (hparts : t.parts = .ok (ps, span)) :
    ∃ s rest stop, ps = .statement s :: rest ∧ span = some ⟨s.span.start, stop⟩ := by
  induction h generalizing ps span with
  | leaf t => cases ht
  | @node c l us hproduction hchildren ih =>
    cases ht
    have hfirst : ∃ u us', us = u :: us' ∧
        (u.symbol = .category .statement ∨ u.symbol = .category .statements) := by
      rw [productions_statements] at hproduction
      simp only [List.mem_cons, List.not_mem_nil, or_false, Production.mk.injEq,
        map_symbol_eq_category_cons] at hproduction
      rcases hproduction with ⟨-, u, us', rfl, hu, -⟩ | ⟨-, u, us', rfl, hu, -⟩ |
        ⟨-, u, us', rfl, hu, -⟩ | ⟨-, u, us', rfl, hu, -⟩
      · exact ⟨u, us', rfl, .inl hu⟩
      · exact ⟨u, us', rfl, .inl hu⟩
      · exact ⟨u, us', rfl, .inr hu⟩
      · exact ⟨u, us', rfl, .inr hu⟩
    have hl : l = .spliced := by
      have hchecked : ∀ p ∈ productions .statements, p.construct = .spliced := by decide
      exact hchecked _ hproduction
    subst hl
    obtain ⟨u, us', rfl, hu⟩ := hfirst
    obtain ⟨own, hown, hcontribute⟩ := parts_node_eq_ok.1 hparts
    rw [contribute_spliced] at hcontribute
    cases hcontribute
    obtain ⟨first, s₁, others, s₂, hfirst, -, rfl, rfl⟩ := partsOf_cons_eq_ok.1 hown
    have hstart : ∃ s rest stop, first = .statement s :: rest ∧ s₁ = some ⟨s.span.start, stop⟩ := by
      rcases hu with hu | hu
      · have hfits := (hchildren u List.mem_cons_self).fits hfirst
        rw [hu] at hfits
        obtain ⟨p, rfl, hk, hcovers⟩ := hfits
        obtain ⟨s, rfl⟩ : ∃ s, p = .statement s := by
          cases p <;> first | contradiction | exact ⟨_, rfl⟩
        exact ⟨s, [], s.span.stop, rfl, hcovers _ rfl⟩
      · exact ih u List.mem_cons_self hu hfirst
    obtain ⟨s, rest, stop, rfl, rfl⟩ := hstart
    cases s₂ with
    | none => exact ⟨s, rest ++ others, stop, rfl, rfl⟩
    | some s' => exact ⟨s, rest ++ others, s'.stop, rfl, rfl⟩

/-- A last statement that contributes a return is one. -/
theorem returned_cases {L : Tree} {r : Return} (h : L.WellFormed)
    (hL : L.symbol = .category .lastStatement) (hparts : L.parts = .ok (ps, span))
    (hr : .returned r ∈ ps) :
    ∃ us own, L = node .lastStatement .returnStatement us ∧ ps = [.returned r] ∧
      span = some r.span ∧ partsOf us = .ok (own, some r.span) ∧
      (own = [] ∧ r.expressions = [] ∨ own = [.expressions r.expressions]) := by
  obtain ⟨l, us, rfl⟩ := symbol_eq_category_iff.1 hL
  obtain ⟨own, hown, hcontribute⟩ := parts_node_eq_ok.1 hparts
  have hl : l ≠ .spliced := by
    -- A spliced last statement is a `continue`, which is no return.
    rintro rfl
    rw [contribute_spliced] at hcontribute
    cases hcontribute
    obtain ⟨u, hu, own', s, hown', hmem⟩ := mem_of_partsOf hown hr
    have hchecked : ∀ p ∈ productions .lastStatement, p.construct = .spliced →
        ∀ x ∈ p.body, .returned ∉ (symbolShape x).kinds := by decide
    exact hchecked _ h.production rfl _ (List.mem_map_of_mem hu)
      (((h.children u hu).fits hown').kind_mem _ hmem)
  rcases contribute_eq_ok hl hcontribute with ⟨s, p, rfl, hp, rfl⟩ | ⟨-, -, rfl⟩
  · obtain rfl := List.mem_singleton.1 hr
    obtain ⟨rfl, rfl, hexpressions⟩ := return_of_assemble hp
    exact ⟨us, own, rfl, rfl, rfl, hown, hexpressions⟩
  · simp at hr

/-- The trees of what is returned: the word, then the expressions. -/
theorem return_cases {L : Tree} {r : Return} (h : L.WellFormed)
    (hL : L.symbol = .category .lastStatement) (hparts : L.parts = .ok ([.returned r], span))
    (hr : r.expressions ≠ []) :
    ∃ kw E semi s, L = node .lastStatement .returnStatement (leaf kw :: E :: semi) ∧
      kw.terminal = .kwReturn ∧ E.symbol = .category .expressionList ∧
      E.parts = .ok ([.expressions r.expressions], s) := by
  obtain ⟨us, own, rfl, -, -, hown, ⟨-, hnil⟩ | rfl⟩ :=
    returned_cases h hL hparts (List.mem_singleton.2 rfl)
  · exact absurd hnil hr
  have htoken {x : Token} (hx : x.terminal = .kwReturn ∨ x.terminal = .semicolon) :
      (if x.terminal.isContent then [Part.token x] else []) = [] := by
    rcases hx with hx | hx <;> rw [hx] <;> rfl
  have hp := h.production
  rw [productions_lastStatement] at hp
  simp only [List.mem_cons, List.not_mem_nil, or_false, Production.mk.injEq, reduceCtorEq,
    false_and, true_and, map_symbol_eq_token_cons, map_symbol_eq_category_cons,
    List.map_eq_nil_iff] at hp
  rcases hp with ⟨kw, _, rfl, hkw, E, _, rfl, hE, x, _, rfl, hx, rfl⟩ |
    ⟨kw, _, rfl, hkw, E, _, rfl, hE, rfl⟩ | ⟨kw, _, rfl, hkw, x, _, rfl, hx, rfl⟩ |
    ⟨kw, _, rfl, hkw, rfl⟩
  · obtain ⟨_, _, hE', heq, -⟩ := partsOf_leaf_cons_eq_ok.1 hown
    rw [htoken (.inl hkw), List.nil_append] at heq
    subst heq
    obtain ⟨first, s₁, others, _, hfirst, hothers, heq, -⟩ := partsOf_cons_eq_ok.1 hE'
    obtain ⟨_, _, hnil, rfl, -⟩ := partsOf_leaf_cons_eq_ok.1 hothers
    cases hnil
    rw [htoken (.inr hx), List.append_nil, List.append_nil] at heq
    subst heq
    exact ⟨kw, E, _, s₁, rfl, hkw, hE, hfirst⟩
  · obtain ⟨_, _, hE', heq, -⟩ := partsOf_leaf_cons_eq_ok.1 hown
    rw [htoken (.inl hkw), List.nil_append] at heq
    subst heq
    exact ⟨kw, E, _, _, rfl, hkw, hE, partsOf_singleton.1 hE'⟩
  · obtain ⟨_, _, hx', heq, -⟩ := partsOf_leaf_cons_eq_ok.1 hown
    obtain ⟨_, _, hnil, rfl, -⟩ := partsOf_leaf_cons_eq_ok.1 hx'
    cases hnil
    rw [htoken (.inl hkw), htoken (.inr hx)] at heq
    cases heq
  · obtain ⟨_, _, hnil, heq, -⟩ := partsOf_leaf_cons_eq_ok.1 hown
    cases hnil
    rw [htoken (.inl hkw)] at heq
    cases heq

/-- The last tree of a block that returns is that of the return. -/
theorem return_of_block {l : Construct} (h : WellFormed (node .block l ts))
    (hown : partsOf ts = .ok (own, span)) {r : Return}
    (hr : own.findSome? Part.returned? = some r) :
    ∃ (first : List Tree) (L : Tree) (firstParts : List Part) (s : Option Span),
      ts = first ++ [L] ∧
      (first = [] ∨ ∃ S : Tree, first = [S] ∧ S.symbol = .category .statements) ∧
      partsOf first = .ok (firstParts, s) ∧ L.symbol = .category .lastStatement ∧
      L.parts = .ok ([.returned r], some r.span) ∧ own = firstParts ++ [Part.returned r] ∧
      span = joinSpans s (some r.span) := by
  obtain ⟨-, first, last, rfl, hfirst, hlast⟩ := block_cases h
  obtain ⟨firstParts, s, lastParts, s', hfirstParts, hlastParts, rfl, rfl⟩ :=
    partsOf_append_eq_ok.1 hown
  have hnone : firstParts.findSome? Part.returned? = none := by
    rcases hfirst with rfl | ⟨S, rfl, hS⟩
    · cases hfirstParts
      rfl
    · have hfits := (h.children S (by simp)).fits (partsOf_singleton.1 hfirstParts)
      rw [hS] at hfits
      refine List.findSome?_eq_none_iff.2 fun p hp => ?_
      have hk : p.kind = .statement := by simpa using hfits p hp
      cases p <;> first | contradiction | rfl
  rw [List.findSome?_append, hnone, Option.none_or] at hr
  rcases hlast with rfl | ⟨L, rfl, hL⟩
  · cases hlastParts
    contradiction
  · rw [partsOf_singleton] at hlastParts
    obtain ⟨p, hp, hpr⟩ := List.exists_of_findSome?_eq_some hr
    obtain rfl : p = .returned r := by
      cases p <;> first | contradiction | (cases hpr; rfl)
    obtain ⟨us, own', -, rfl, rfl, -⟩ := returned_cases (h.children L (by simp)) hL hlastParts hp
    exact ⟨first, L, firstParts, s, rfl, hfirst, hfirstParts, hL, hlastParts, rfl, rfl⟩

/-- The tree of a statement of a block stands in it. -/
theorem statement_of_block {l : Construct} (h : WellFormed (node .block l ts))
    (hown : partsOf ts = .ok (own, span)) {r : Return}
    (hr : own.findSome? Part.returned? = some r) {s : Statement} (hs : .statement s ∈ own) :
    ∃ t ∈ ts, ∃ (T : Tree) (s' : Option Span), T.Within t ∧ T.WellFormed ∧
      T.symbol = .category .statement ∧
      T.parts = .ok ([.statement s], s') := by
  obtain ⟨first, L, firstParts, s₁, rfl, hfirst, hfirstParts, -, -, rfl, -⟩ :=
    return_of_block h hown hr
  have hmem : .statement s ∈ firstParts := by simpa using hs
  rcases hfirst with rfl | ⟨S, rfl, hS⟩
  · cases hfirstParts
    contradiction
  · have hwellS := h.children S (by simp)
    have hspliced : ∀ p ∈ productions .statements, p.construct = .spliced := by decide
    obtain ⟨T, hT, own', s', hown', hmem'⟩ := mem_of_partsOf
      (hwellS.partsOf_members hspliced (partsOf_singleton.1 hfirstParts)) hmem
    obtain ⟨hwell, hsymbol⟩ := hwellS.member hT
    have hstatement : T.symbol = .category .statement := by
      rcases hsymbol with ⟨-, hne⟩ | hsymbol
      · exact absurd hS hne
      · have hchecked : ∀ x ∈ memberSymbols .statements, x = .category .statement ∨
            .statement ∉ (symbolShape x).kinds := by decide
        exact (hchecked _ hsymbol).resolve_right fun hnot =>
          hnot ((hwell.fits hown').kind_mem _ hmem')
    have hfits := hwell.fits hown'
    rw [hstatement] at hfits
    obtain ⟨p, rfl, -, -⟩ := hfits
    rw [List.mem_singleton] at hmem'
    subst hmem'
    exact ⟨S, by simp, T, s', Within.member hT, hwell, hstatement, hown'⟩

theorem productions_localAssignment :
    (productions .statement).filter (·.construct = .localAssignment) =
    [⟨.localAssignment, [.token .kwLocal, .category .bindingList, .token .equals,
        .category .expressionList]⟩,
      ⟨.localAssignment, [.token .kwLocal, .category .bindingList]⟩] := rfl

/-- The trees of a local assignment of an expression. -/
theorem localAssignment_cases {T : Tree} (h : T.WellFormed) (hT : T.symbol = .category .statement)
    {s : Span} {names : List Name} {e : Expression}
    (hparts : T.parts = .ok ([.statement (.localAssignment s names [e])], span)) :
    ∃ (first : List Tree) (E : Tree) (s' : Option Span),
      T = node .statement .localAssignment (first ++ [E]) ∧
      first.map symbol = [.token .kwLocal, .category .bindingList, .token .equals] ∧
      E.symbol = .category .expressionList ∧ E.parts = .ok ([.expressions [e]], s') := by
  obtain ⟨l, us, rfl⟩ := symbol_eq_category_iff.1 hT
  obtain ⟨own, hown, hcontribute⟩ := parts_node_eq_ok.1 hparts
  have hspliced : l ≠ .spliced := by
    have hchecked : ∀ p ∈ productions .statement, p.construct ≠ .spliced := by decide
    exact hchecked _ h.production
  obtain ⟨rfl, rfl⟩ : l = .localAssignment ∧ own = [.bindings names, .expressions [e]] := by
    rcases contribute_eq_ok hspliced hcontribute with ⟨s', p, -, hp, heq⟩ | ⟨-, -, heq⟩
    · obtain rfl := List.singleton_inj.1 heq
      obtain ⟨hl, ⟨-, hnil⟩ | hown⟩ := localAssignment_of_assemble hp
      · cases hnil
      · exact ⟨hl, hown⟩
    · cases heq
  have hp := List.mem_filter (p := (·.construct = .localAssignment)).2 ⟨h.production, by simp⟩
  rw [productions_localAssignment] at hp
  simp only [List.mem_cons, List.not_mem_nil, or_false, Production.mk.injEq, true_and] at hp
  rcases hp with hbody | hbody
  · have hsplit : us.map symbol = [.token .kwLocal, .category .bindingList, .token .equals] ++
        [.category .expressionList] := hbody
    obtain ⟨first, last, rfl, hfirst, hlast⟩ := List.map_eq_append_iff.1 hsplit
    obtain ⟨E, rfl, hE⟩ := List.map_eq_singleton_iff.1 hlast
    obtain ⟨firstParts, _, lastParts, s', -, hlastParts, heq, -⟩ := partsOf_append_eq_ok.1 hown
    rw [partsOf_singleton] at hlastParts
    obtain ⟨p, rfl⟩ : ∃ p, lastParts = [p] := by
      have hfits := (h.children E (by simp)).fits hlastParts
      rw [hE] at hfits
      obtain ⟨p, hp, -⟩ := hfits
      exact ⟨p, hp⟩
    obtain rfl : p = .expressions [e] := by
      have hget := congrArg List.getLast? heq
      simpa using hget.symm
    exact ⟨first, E, s', rfl, hfirst, hE, hlastParts⟩
  · obtain ⟨kw, _, rfl, hkw, hrest⟩ := map_symbol_eq_token_cons.1 hbody
    obtain ⟨B, rfl, hB⟩ := List.map_eq_singleton_iff.1 hrest
    obtain ⟨others, _, hothers, heq, -⟩ := partsOf_leaf_cons_eq_ok.1 hown
    rw [partsOf_singleton] at hothers
    have hfits := (h.children B (by simp)).fits hothers
    rw [hB] at hfits
    obtain ⟨p, rfl, -⟩ := hfits
    rw [hkw] at heq
    cases heq

end Tree

namespace ReadsBlock

variable {file : Text} {source : List Char} {ts : List Tree} {own : List Part}

/-- The trees of the block are read from the start of a source, with nothing but a gap behind. -/
theorem reads_to_end (h : ReadsBlock source ts own) :
    ∃ q j, Reads .initial (.start source) ts q j ∧ j.gap = j.rest := by
  obtain ⟨q, j, r, p, hreads, hlook, -, -⟩ := h.reads.to_end
  obtain ⟨q₁, s', r', hts, -⟩ := hreads.node_inv
  exact ⟨q₁, j, hts, (Place.look_eq_end_iff.1 hlook).1⟩

/-- A source that returns has a token. -/
theorem tokens_ne_nil (h : ReadsBlock source ts own) {r : Return}
    (hr : own.findSome? Part.returned? = some r) : Tree.tokensOf ts ≠ [] := by
  obtain ⟨span, hown⟩ := h.parts
  obtain ⟨first, L, firstParts, s, rfl, -, -, -, -, rfl, rfl⟩ :=
    Tree.return_of_block h.wellFormed hown hr
  intro hnil
  have hextent := Tree.span_of_partsOf hown
  rw [hnil] at hextent
  cases s <;> contradiction

/-- Behind the gap at its start a source that returns starts with a token. -/
theorem startsToken (h : ReadsBlock source ts own) {r : Return}
    (hr : own.findSome? Part.returned? = some r) :
    StartsToken (source.drop (gap 0 source).length) := by
  obtain ⟨q, j, hreads, -⟩ := h.reads_to_end
  obtain ⟨b, hb, hstarts, -⟩ := hreads.body (h.tokens_ne_nil hr)
  have hsource : source = gap 0 source ++ (b ++ j.rest) := hb
  have hdrop : source.drop (gap 0 source).length = b ++ j.rest := by
    refine List.append_cancel_left ((gap_append_drop 0 source).trans hsource)
  rwa [hdrop]

/-- The statements of a block start where its trees do. -/
theorem head_spans (h : ReadsBlock source ts own) (file : Text) :
    (chunkOf file source own).block.spans.head?.map Span.start =
      (Tree.extentOf (Tree.tokensOf ts)).map Span.start := by
  obtain ⟨span, hown⟩ := h.parts
  rw [← Tree.span_of_partsOf hown]
  obtain ⟨-, first, last, rfl, hfirst, hlast⟩ := Tree.block_cases h.wellFormed
  obtain ⟨firstParts, s, lastParts, s', hfirstParts, hlastParts, rfl, rfl⟩ :=
    Tree.partsOf_append_eq_ok.1 hown
  rcases hfirst with rfl | ⟨S, rfl, hS⟩
  · cases hfirstParts
    rcases hlast with rfl | ⟨L, rfl, hL⟩
    · cases hlastParts
      rfl
    · rw [Tree.partsOf_singleton] at hlastParts
      rcases Tree.part_of_lastStatement (h.wellFormed.children L (by simp)) hL hlastParts with
        ⟨st, stop, rfl, rfl⟩ | ⟨r, rfl, rfl⟩ <;> rfl
  · obtain ⟨st, rest, stop, rfl, rfl⟩ := Tree.first_of_statements
      (h.wellFormed.children S (by simp)) hS (Tree.partsOf_singleton.1 hfirstParts)
    cases s' <;> rfl

/-- The leading trivia of a source is the gap at its start. -/
theorem leadingTrivia (h : ReadsBlock source ts own) :
    (chunkOf file source own).leadingTrivia = gap 0 source := by
  obtain ⟨q, j, hreads, hend⟩ := h.reads_to_end
  have hspans := h.head_spans file
  by_cases htokens : Tree.tokensOf ts = []
  · rw [htokens, Tree.extentOf, Option.map_none, Option.map_eq_none_iff] at hspans
    rw [hreads.place_eq htokens] at hend
    rw [Chunk.leadingTrivia, hspans]
    exact hend.symm
  · rw [hreads.extent htokens, Option.map_some, Option.map_eq_some_iff] at hspans
    obtain ⟨a, hhead, hstart⟩ := hspans
    have hoffset : a.start.offset = (gap 0 source).length := by
      rw [hstart, Position.offset_advance]
      exact Nat.zero_add _
    rw [Chunk.leadingTrivia, hhead]
    change source.take a.start.offset = _
    rw [hoffset]
    exact (List.prefix_iff_eq_take.1 ⟨_, gap_append_drop 0 source⟩).symm

/-- The trailing trivia of a source that returns is what is left behind the trees of its block. -/
theorem trailingTrivia (h : ReadsBlock source ts own) {r : Return}
    (hr : own.findSome? Part.returned? = some r) {q : State} {j : Place}
    (hreads : Reads .initial (.start source) ts q j) :
    (chunkOf file source own).trailingTrivia = j.rest := by
  obtain ⟨span, hown⟩ := h.parts
  obtain ⟨first, L, firstParts, s, rfl, -, -, -, hL, rfl, -⟩ :=
    Tree.return_of_block h.wellFormed hown hr
  obtain ⟨q₁, i, hfirst, hlast⟩ := hreads.split
  have hi := (Place.In.start source).reads hfirst
  have hextent := Tree.span_of_partsOf (Tree.partsOf_singleton.2 hL)
  have htokens : Tree.tokensOf [L] ≠ [] := by
    intro hnil
    rw [hnil] at hextent
    contradiction
  rw [hlast.extent htokens] at hextent
  have hstop : r.span.stop = j.position := congrArg Span.stop (Option.some.inj hextent)
  have hspans : (chunkOf file source (firstParts ++ [.returned r])).block.spans.getLast? =
      some r.span := by
    have hblock : (chunkOf file source (firstParts ++ [.returned r])).block.last = some r := hr
    rw [Block.spans, hblock, List.getLast?_append]
    rfl
  rw [Chunk.trailingTrivia, hspans]
  change source.drop r.span.stop.offset = _
  rw [hstop, (hi.reads hlast).drop_offset]

end ReadsBlock

end TypedLinks.Luau
