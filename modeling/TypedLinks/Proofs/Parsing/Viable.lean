import TypedLinks.Proofs.Parsing.Progress
import TypedLinks.Proofs.Syntax.Positions

/-!
# Faults are reported at once

Where the machine stops, the tokens that it has shifted can be continued to those of a chunk: around
the trees on its stack the tree of a chunk can be completed. The automaton may reduce before a token
that cannot follow, but it shifts none. So the tokens before the place of a syntax error are the
first ones of a chunk.
-/

namespace TypedLinks.Luau

open Grammar TypedLinks.Luau.Configuration

/-! ## Trees of every category -/

namespace Category

/-- How far a category is from a production of tokens alone. -/
def level : Category → Nat
  | .chunk | .statement | .elseClause | .bindingList | .functionBody | .parameterList
  | .typeAssertion | .primaryExpression | .typeInstantiation | .postfixType | .typeListItem
  | .genericParameterList | .furtherBindings | .attributes | .furtherAttributeEntries
  | .furtherTypesOrPacks | .furtherGenericParameters => 1
  | .unaryExpression | .suffixedExpression | .type | .typeList | .genericParameters | .statements
  | .furtherMembers | .furtherListItems => 2
  | .assignmentTargets | .expression | .tableTypeField | .furtherTargets | .operations
  | .assertions => 3
  | .elseifClause | .expressionList | .elseifExpression | .tableField | .furtherExpressions
  | .furtherTypeFields => 4
  | .elseifClauses | .elseifExpressions | .furtherFields => 5
  | _ => 0

/-- Whether a symbol is a token or a category of a smaller level. -/
def above (c : Category) : GrammarSymbol → Bool
  | .token _ => true
  | .category d => d.level < c.level

theorem levels_checked :
    (all.all fun c => (productions c).any fun p => p.body.all c.above) = true := by
  decide

end Category

namespace Tree

theorem exists_trees {ss : List GrammarSymbol}
    (h : ∀ s ∈ ss, ∃ t : Tree, t.WellFormed ∧ t.symbol = s) :
    ∃ ts : List Tree, (∀ t ∈ ts, t.WellFormed) ∧ ts.map symbol = ss := by
  induction ss with
  | nil => exact ⟨[], nofun, rfl⟩
  | cons s ss ih =>
    rw [List.forall_mem_cons] at h
    obtain ⟨⟨t, ht, rfl⟩, hss⟩ := h
    obtain ⟨ts, hts, rfl⟩ := ih hss
    exact ⟨t :: ts, List.forall_mem_cons.2 ⟨ht, hts⟩, rfl⟩

/-- Every symbol is the root of a well-formed tree. -/
theorem exists_tree (s : GrammarSymbol) : ∃ t : Tree, t.WellFormed ∧ t.symbol = s := by
  cases s with
  | token x => exact ⟨.leaf ⟨x, [], ⟨.start, .start⟩⟩, .leaf _, rfl⟩
  | category c =>
    induction hn : c.level using Nat.strong_induction_on generalizing c with
    | _ n ih =>
      obtain ⟨p, hp, hbody⟩ := List.any_eq_true.1
        (List.all_eq_true.1 Category.levels_checked c (Category.mem_all c))
      have htrees : ∀ s ∈ p.body, ∃ t : Tree, t.WellFormed ∧ t.symbol = s := by
        intro s hs
        have habove := List.all_eq_true.1 hbody s hs
        cases s with
        | token x => exact ⟨.leaf ⟨x, [], ⟨.start, .start⟩⟩, .leaf _, rfl⟩
        | category d => exact ih d.level (hn ▸ of_decide_eq_true habove) d rfl
      obtain ⟨ts, hts, hsymbols⟩ := exists_trees htrees
      exact ⟨.node c p.construct ts, .node (by rw [hsymbols]; exact hp) hts, rfl⟩

end Tree

/-! ## Trees around a tree -/

/-- How many categories are begun at once where a symbol is the first one of their productions: a
state that is entered by the symbol holds an item of a production that began earlier, or that has a
smaller depth. -/
def symbolDepth : GrammarSymbol → Nat
  | .category c =>
    match c with
    | .block | .elseifClause | .binding | .variadicParameter | .expression | .binaryOperator
    | .elseifExpression | .fieldName | .typeListItem | .access | .propertyName
    | .genericParameter => 1
    | .lastStatement | .unaryExpression | .typeOrPack | .statements => 2
    | .statement | .continueStatement | .unaryOperator | .typeAssertion | .type => 3
    | .assignmentTargets | .simpleExpression | .typeOperator | .postfixType => 4
    | .literal | .string | .suffixedExpression | .tableConstructor | .simpleType | .attributes => 5
    | .attribute | .primaryExpression | .typeReference | .tableType | .genericParameters => 6
    | .nameExpression => 7
    | _ => 0
  | .token _ => 8

theorem symbolDepth_le (s : GrammarSymbol) : symbolDepth s ≤ 8 := by
  cases s with
  | token x => exact Nat.le_refl 8
  | category c => cases c <;> decide

/-- Whether the production of an item began before a symbol that was passed last, or is of a smaller
depth than that. -/
def Item.climbs (s : GrammarSymbol) (i : Item) : Bool :=
  i.passed ≠ 1 || symbolDepth (.category i.category) < symbolDepth s

set_option maxRecDepth 100000 in
theorem climbing_items_checked :
    (allSymbols.all fun s => (entered s).all fun q => q.items.any (·.climbs s)) = true := by
  decide

set_option maxRecDepth 100000 in
theorem chunk_items_checked :
    (State.all.all fun q => q.items.all fun i =>
      i.category ≠ .chunk || i.passed = 0 ||
        (i.passed = 1 && q.sources = 1 && i.body.length = 1)) = true := by
  decide

theorem Item.mem_productions {i : Item} {k : Nat} {s : GrammarSymbol} (h : i.body[k]? = some s) :
    ∃ l, ⟨l, i.body⟩ ∈ productions i.category := by
  cases hp : (productions i.category)[i.alternative]? with
  | none =>
    rw [Item.body, hp] at h
    contradiction
  | some p =>
    have hbody : i.body = p.body := by
      rw [Item.body, hp]
      rfl
    rw [hbody]
    exact ⟨p.construct, List.mem_of_getElem? hp⟩

/-- The body of an item is what it has passed, the symbol it goes on with, and the rest. -/
theorem Item.body_eq_append (i : Item) {k : Nat} {s : GrammarSymbol} {t : Tree} {ts us : List Tree}
    (h : i.body[k]? = some s) (hts : i.body.take k = ts.map Tree.symbol) (ht : t.symbol = s)
    (hus : us.map Tree.symbol = i.body.drop (k + 1)) :
    i.body = (ts ++ t :: us).map Tree.symbol := by
  obtain ⟨hlt, hget⟩ := List.getElem?_eq_some_iff.1 h
  rw [List.map_append, List.map_cons, ← hts, hus, ht, ← hget, ← List.drop_eq_getElem_cons hlt,
    List.take_append_drop]

/-- Any tree of a symbol can stand behind some tokens in the tree of a chunk. -/
def Completes (ts : List Token) (s : GrammarSymbol) : Prop :=
  ∀ t : Tree, t.WellFormed → t.symbol = s →
    ∃ (whole : Tree) (us : List Token), whole.WellFormed ∧ whole.symbol = .category .chunk ∧
      whole.tokens = ts ++ t.tokens ++ us

section Stack

variable {source : List Char} {stack : List (State × Tree)} {i : Place} {q : State}
  {s : GrammarSymbol}

/-- The trees of a stack that a production has passed, and the state below them, from which a tree
of its category can be put there. -/
theorem Stacked.begun (h : Stacked source stack i) (hmove : (top stack).move? s = some q)
    {item : Item} (hitem : item ∈ q.items) {k : Nat} (hk : item.passed = k + 1)
    (hchunk : item.category ≠ .chunk) :
    ∃ j q', Stacked source (stack.drop k) j ∧ k ≤ stack.length ∧
      item.body.take k = ((stack.take k).reverse.map (·.2)).map Tree.symbol ∧
      (top (stack.drop k)).move? (.category item.category) = some q' := by
  obtain ⟨k', hk', -, hbefore⟩ := State.item_of_move? h.top_mem_all hmove hitem
  obtain rfl : k = k' := by omega
  rcases Nat.eq_zero_or_pos k with rfl | hpos
  · obtain ⟨q', hgoto⟩ := State.exists_goto?_of_item hmove hitem hk hchunk
    exact ⟨i, q', h, Nat.zero_le _, rfl, hgoto⟩
  · obtain ⟨hle, j, hbelow, hreads⟩ := h.pop (hbefore hpos) rfl
    rw [Item.passed_upTo] at hle hbelow hreads
    have hlength : ((stack.take k).reverse.map (·.2)).length = k := by
      rw [List.length_map, List.length_reverse, List.length_take, Nat.min_eq_left hle]
    have hne : (stack.take k).reverse.map (·.2) ≠ [] := List.ne_nil_of_length_pos (by omega)
    obtain ⟨q', hgoto⟩ := hreads.exists_goto? hne (hbefore hpos) (by rw [hlength]; rfl) hchunk
    obtain ⟨hsymbols, -⟩ := hreads.symbols_of_item hbelow.top_mem_all (hbefore hpos) (n := 0)
      (by rw [hlength, Nat.zero_add]; rfl)
    rw [hlength, List.drop_zero, Item.body_upTo] at hsymbols
    exact ⟨j, q', hbelow, hle, hsymbols, hgoto⟩

/-- A chunk is begun at the start only, and has one part. -/
theorem Stacked.begun_chunk (h : Stacked source stack i) (hmove : (top stack).move? s = some q)
    {item : Item} (hitem : item ∈ q.items) (hchunk : item.category = .chunk) :
    stack = [] ∧ item.body = [s] := by
  obtain ⟨k, hk, hbody, -⟩ := State.item_of_move? h.top_mem_all hmove hitem
  have hcheck := List.all_eq_true.1 (List.all_eq_true.1 chunk_items_checked q
    (State.mem_all_of_move? hmove)) item hitem
  simp only [hchunk, ne_eq, not_true_eq_false, decide_false, Bool.false_or, Bool.or_eq_true,
    Bool.and_eq_true, decide_eq_true_eq] at hcheck
  obtain hzero | ⟨⟨hpassed, hsources⟩, hlength⟩ := hcheck
  · omega
  · constructor
    · by_contra hne
      exact h.top_ne_initial hne (State.eq_initial_of_sources h.top_mem_all hmove hsources)
    · obtain rfl : k = 0 := by omega
      obtain ⟨s', hs'⟩ := List.length_eq_one_iff.1 hlength
      rw [hs'] at hbody ⊢
      rw [Option.some.inj hbody]

theorem Stacked.wellFormed_take (h : Stacked source stack i) (k : Nat) :
    ∀ u ∈ (stack.take k).reverse.map (·.2), u.WellFormed := by
  intro u hu
  refine h.reads.wellFormed State.initial_mem_all u ?_
  simp only [List.mem_map, List.mem_reverse] at hu ⊢
  obtain ⟨f, hf, rfl⟩ := hu
  exact ⟨f, List.mem_of_mem_take hf, rfl⟩

/-- Around a tree that a state goes on with, and the trees on the stack, the tree of a chunk can be
completed. -/
theorem Stacked.completes (h : Stacked source stack i) (hmove : (top stack).move? s = some q) :
    Completes (Tree.tokensOf (stack.reverse.map (·.2))) s := by
  induction hn : 9 * stack.length + symbolDepth s using Nat.strong_induction_on
    generalizing stack i q s with
  | _ n ih =>
    intro t ht hsymbol
    have hq := (State.move?_eq_some hmove).1
    obtain ⟨item, hitem, hclimbs⟩ := List.any_eq_true.1 (List.all_eq_true.1
      (List.all_eq_true.1 climbing_items_checked s (mem_allSymbols s)) q hq)
    obtain ⟨k, hk, hbody, -⟩ := State.item_of_move? h.top_mem_all hmove hitem
    obtain ⟨l, hproduction⟩ := Item.mem_productions hbody
    by_cases hchunk : item.category = .chunk
    · -- A chunk is begun at the start only, and the tree is all of it.
      obtain ⟨rfl, hsingle⟩ := h.begun_chunk hmove hitem hchunk
      rw [hsingle, hchunk] at hproduction
      refine ⟨.node .chunk l [t], [], .node ?_ (by simpa using ht), rfl, ?_⟩
      · rwa [List.map_singleton, hsymbol]
      · simp [Tree.tokens, Tree.tokensOf]
    obtain ⟨j, q', hbelow, hle, hsymbols, hgoto⟩ := h.begun hmove hitem hk hchunk
    obtain ⟨others, hothers, hrest⟩ :=
      Tree.exists_trees fun s (_ : s ∈ item.body.drop (k + 1)) => Tree.exists_tree s
    have hnode : Tree.WellFormed (.node item.category l
        ((stack.take k).reverse.map (·.2) ++ t :: others)) := by
      refine .node ?_ fun u hu => ?_
      · rwa [← item.body_eq_append hbody hsymbols hsymbol hrest]
      · rcases List.mem_append.1 hu with hu | hu
        · exact h.wellFormed_take k u hu
        · rcases List.mem_cons.1 hu with rfl | hu
          · exact ht
          · exact hothers u hu
    have hsmaller : 9 * (stack.drop k).length + symbolDepth (.category item.category) < n := by
      have hdepth := symbolDepth_le (.category item.category)
      rw [Item.climbs, hk, Bool.or_eq_true, decide_eq_true_eq, decide_eq_true_eq] at hclimbs
      rw [List.length_drop]
      omega
    obtain ⟨whole, us, hwhole, hroot, htokens⟩ := ih _ hsmaller hbelow hgoto rfl _ hnode rfl
    refine ⟨whole, Tree.tokensOf others ++ us, hwhole, hroot, ?_⟩
    have hstack : stack.reverse = (stack.drop k).reverse ++ (stack.take k).reverse := by
      rw [← List.reverse_append, List.take_append_drop]
    rw [htokens, hstack, List.map_append, Tree.tokensOf_append, Tree.tokens, Tree.tokensOf_append,
      Tree.tokensOf]
    simp only [List.append_assoc]

/-! ## Tokens before a fault -/

/-- Whether a row of tokens is the beginning of a chunk. -/
def Viable (ts : List Terminal) : Prop :=
  ∃ us, Derives [.category .chunk] ((ts ++ us).map .token)

theorem viable_of_tree {whole : Tree} (hwhole : whole.WellFormed)
    (hroot : whole.symbol = .category .chunk) {ts us : List Token}
    (htokens : whole.tokens = ts ++ us) : Viable (ts.map (·.terminal)) := by
  refine ⟨us.map (·.terminal), ?_⟩
  have hderives := hwhole.isDerivation.derives
  rwa [hroot, Tree.sentence, Tree.tokensOf, Tree.tokensOf, List.append_nil, htokens,
    ← Function.comp_def, ← List.map_map, List.map_append] at hderives

/-- The tokens on a stack are the beginning of a chunk. -/
theorem Stacked.viable (h : Stacked source stack i) :
    Viable ((Tree.tokensOf (stack.reverse.map (·.2))).map (·.terminal)) := by
  cases h with
  | nil =>
    obtain ⟨t, ht, hroot⟩ := Tree.exists_tree (.category .chunk)
    exact viable_of_tree ht hroot (List.nil_append t.tokens).symm
  | @cons stack i _ t q below read =>
    have ht := read.wellFormed below.top_mem_all t (List.mem_singleton_self t)
    obtain ⟨whole, us, hwhole, hroot, htokens⟩ := below.completes read.move t ht rfl
    rw [List.reverse_cons, List.map_append, Tree.tokensOf_append]
    rw [← List.append_nil t.tokens, ← Tree.tokensOf, ← Tree.tokensOf] at htokens
    exact viable_of_tree hwhole hroot htokens

/-- The machine stops behind the white space and the comments at a place. -/
theorem Fails.position_eq {e : SyntaxFault} (h : Fails q i e) (hi : i.In source) :
    e.position source = i.position.advance i.gap := by
  cases h with
  | foreign _ _ hscan =>
    obtain ⟨-, -, -, -, hspan⟩ := lexeme?_of_scan hscan
    rw [SyntaxFault.position, hspan]
  | character => rfl
  | token hlook =>
    obtain ⟨-, -, -, hspan, -⟩ := Place.token_of_look hlook
    rw [SyntaxFault.position, hspan]
  | atEnd hlook =>
    obtain ⟨hgap, -, -⟩ := Place.look_eq_end_iff.1 hlook
    obtain ⟨x, hx, hposition⟩ := hi
    rw [SyntaxFault.position, hgap, hposition, ← Position.advance_append, ← hx,
      Position.advance_start]

/-- What is left of the source where the machine stops. -/
theorem Fails.drop_position {e : SyntaxFault} (h : Fails q i e) (hi : i.In source) :
    source.drop (e.position source).offset = i.rest.drop i.gap.length := by
  rw [h.position_eq hi, Position.offset_advance, ← List.drop_drop, hi.drop_offset]

end Stack

/-- Tokens in a text start before its end. -/
theorem Spaced.offset_lt {p : Position} {a : List Char} {ts : List Token} (h : Spaced p a ts)
    {t : Token} (ht : t ∈ ts) : t.span.start.offset < (p.advance a).offset := by
  induction h with
  | nil => contradiction
  | @cons p g a t' ts _ _ hne hspan _ ih =>
    rw [hspan] at ih
    have hlength := List.length_pos_iff.2 hne
    rcases List.mem_cons.1 ht with rfl | ht
    · simp only [hspan, Position.offset_advance, List.length_append]
      omega
    · have hlt := ih ht
      rwa [← Position.advance_append] at hlt

/-- The tokens that are read in a source before an offset. -/
def tokensBefore (source : List Char) (n : Nat) : List Token :=
  (tokensRead source).filter (·.span.start.offset < n)

/-- **No syntax error is reported late**: the source before the place of the error consists of the
tokens that were read there, of white space and of comments, and these tokens are the first ones of
a chunk. -/
theorem viable_before_fault {source : List Char} {e : SyntaxFault} (h : parseTree source = .error e)
    (file : Text) :
    ∃ problem l p, parse file source = .error (.problem problem) ∧ problem.location = some l ∧
      l.StartsAt p ∧ p.offset ≤ source.length ∧
      (∃ a g, source.take p.offset = a ++ g ∧ Spaced .start a (tokensBefore source p.offset) ∧
        g ∈ trivia) ∧
      Viable ((tokensBefore source p.offset).map (·.terminal)) := by
  obtain ⟨stack, i, seen, hstacked, hfails, htokens, hseen⟩ := exists_fails_of_parseTree h
  obtain ⟨a, hsource, hposition, hspaced⟩ := hstacked.reads.spaced
  have hfault := hfails.position_eq hstacked.in_source
  rw [hposition, ← Position.advance_append] at hfault
  have hoffset : (e.position source).offset = (a ++ i.gap).length := by
    rw [hfault, Position.offset_advance]
    exact Nat.zero_add _
  have hsplit : source = a ++ i.gap ++ i.rest.drop i.gap.length := by
    rw [List.append_assoc, i.gap_append_rest]
    exact hsource
  have hbefore : tokensBefore source (e.position source).offset =
      Tree.tokensOf (stack.reverse.map (·.2)) := by
    rw [tokensBefore, htokens, List.filter_append, List.filter_eq_self.2, List.filter_eq_nil_iff.2,
      List.append_nil]
    · intro t ht
      rw [hseen t ht, SyntaxFault.position, decide_eq_true_eq]
      exact Nat.lt_irrefl _
    · intro t ht
      have hlt := hspaced.offset_lt ht
      rw [Position.offset_advance] at hlt
      rw [hoffset, List.length_append, decide_eq_true_eq]
      change _ < 0 + a.length at hlt
      omega
  obtain ⟨-, l, hlocation, -, hline, hcolumn, hstart⟩ := e.location_problem file source
  refine ⟨_, l, e.position source, ?_, hlocation, ⟨hstart, hline, hcolumn⟩, ?_,
    ⟨a, i.gap, ?_, ?_, i.gap_mem_trivia⟩, ?_⟩
  · rw [parse, h]
  · rw [hoffset, hsplit]
    simp
  · conv_lhs => rw [hoffset, hsplit, List.take_left]
  · rw [hbefore]
    exact hspaced
  · rw [hbefore]
    exact hstacked.viable

theorem exists_error_of_isNone {ε α : Type} {r : Except ε α} (h : r.toOption.isNone = true) :
    ∃ e, r = .error e := by
  cases r with
  | error e => exact ⟨e, rfl⟩
  | ok a => contradiction

/-- A source in which a token is missing behind a table that is begun in an argument; the automaton
reduces before it sees that. -/
def brokenTable : List Char :=
  "local x = f(a, \x7b b = 1, -- c
  d e \x7d)
".toList

theorem brokenTable_viable : ∃ e, parseTree brokenTable = .error e ∧
    ∃ problem l p, parse "m" brokenTable = .error (.problem problem) ∧ problem.location = some l ∧
      l.StartsAt p ∧ p.offset ≤ brokenTable.length ∧
      (∃ a g, brokenTable.take p.offset = a ++ g ∧
        Spaced .start a (tokensBefore brokenTable p.offset) ∧ g ∈ trivia) ∧
      Viable ((tokensBefore brokenTable p.offset).map (·.terminal)) := by
  have hfails : (parseTree brokenTable).toOption.isNone := by
    unfold brokenTable
    rw [String.toList_ofList]
    decide +kernel
  obtain ⟨e, he⟩ := exists_error_of_isNone hfails
  exact ⟨e, he, viable_before_fault he "m"⟩

end TypedLinks.Luau
