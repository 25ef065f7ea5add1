import Mathlib.Algebra.Ring.Int.Defs
import TypedLinks.Proofs.Lexing.Scanning
import TypedLinks.Proofs.Parsing.Execution

/-!
# Derivations

The trees that are read are derivations of the grammar over the tokens of the source. A derivation
has at most a fixed number of nodes for each token, so the machine is given enough steps, and the
parse trees of a source are exactly the trees that are read from its start to its end.
-/

namespace TypedLinks.Luau

open Grammar Lexeme

/-! ## Places -/

namespace Place

variable {i : Place} {s : Sight} {t : Token} {p : Position} {rest : List Char}

/-- The white space and the comments at a place. -/
def gap (i : Place) : List Char := Luau.gap 0 i.rest

/-- What the machine sees at a place, without the gap before it. -/
theorem look_eq (i : Place) : i.look =
    match i.rest.drop i.gap.length with
    | [] => some ⟨none, i.position.advance i.gap, []⟩
    | c :: cs =>
      (scan i.scanner.accepts (i.position.advance i.gap) (c :: cs)).map fun (t, rest) =>
        ⟨some t, t.span.stop, rest⟩ := by
  unfold look
  rw [skipTrivia_eq]
  cases h : i.rest.drop i.gap.length with
  | nil =>
    rw [show i.rest.drop (Luau.gap 0 i.rest).length = [] from h]
    rfl
  | cons c cs =>
    rw [show i.rest.drop (Luau.gap 0 i.rest).length = c :: cs from h]
    rfl

theorem gap_append_rest (i : Place) : i.gap ++ i.rest.drop i.gap.length = i.rest :=
  gap_append_drop 0 i.rest

/-- A token that is seen stands behind the gap. -/
theorem scan_of_look (h : i.look = some ⟨some t, p, rest⟩) :
    i.rest = i.gap ++ (t.text ++ rest) ∧
      scan i.scanner.accepts (i.position.advance i.gap) (t.text ++ rest) = some (t, rest) ∧
      p = t.span.stop := by
  have happend := i.gap_append_rest
  rw [look_eq] at h
  split at h
  · cases h
  · rename_i c cs hdrop
    obtain ⟨⟨t', rest'⟩, hscan, heq⟩ := Option.map_eq_some_iff.1 h
    cases heq
    obtain ⟨-, htext, -, -, -⟩ := lexeme?_of_scan hscan
    rw [← htext]
    exact ⟨by rw [← hdrop, happend], hscan, rfl⟩

theorem look_of_scan {g cs : List Char} (hrest : i.rest = g ++ cs) (hgap : i.gap = g)
    (h : scan i.scanner.accepts (i.position.advance g) cs = some (t, rest)) :
    i.look = some ⟨some t, t.span.stop, rest⟩ := by
  have hcs : cs ≠ [] := by
    obtain ⟨-, htext, hne, -, -⟩ := lexeme?_of_scan h
    rw [htext]
    exact fun h => hne (List.append_eq_nil_iff.1 h).1
  obtain ⟨c, cs, rfl⟩ := List.exists_cons_of_ne_nil hcs
  rw [look_eq, hgap, hrest, List.drop_left]
  simp only [h, Option.map_some]

/-- A token that is seen is an accepted lexeme, and its place is where it stands. -/
theorem token_of_look (h : i.look = some ⟨some t, p, rest⟩) :
    i.scanner.accepts t.terminal = true ∧ t.text ≠ [] ∧
      t.terminal.lexeme? (t.text ++ rest) = some t.text.length ∧
      t.span = ⟨i.position.advance i.gap, p⟩ ∧ p = i.position.advance (i.gap ++ t.text) := by
  obtain ⟨-, hscan, rfl⟩ := scan_of_look h
  obtain ⟨hacc, -, hne, hlexeme, hspan⟩ := lexeme?_of_scan hscan
  refine ⟨hacc, hne, hlexeme, ?_, ?_⟩
  · rw [hspan]
  · rw [hspan, Position.advance_append]

theorem look_eq_end_iff :
    i.look = some ⟨none, p, rest⟩ ↔ i.gap = i.rest ∧ p = i.position.advance i.rest ∧ rest = [] := by
  have happend := i.gap_append_rest
  rw [look_eq]
  constructor
  · intro h
    split at h
    · rename_i hdrop
      cases h
      rw [hdrop, List.append_nil] at happend
      rw [happend]
      exact ⟨rfl, rfl, rfl⟩
    · obtain ⟨⟨t', rest'⟩, -, heq⟩ := Option.map_eq_some_iff.1 h
      cases heq
  · rintro ⟨hgap, rfl, rfl⟩
    rw [hgap, List.drop_length]

end Place

/-! ## Well-formed trees -/

namespace Tree

/-- Whether every node of a tree is a production of its category. -/
inductive WellFormed : Tree → Prop where
  | leaf (t : Token) : WellFormed (.leaf t)
  | node {c : Category} {l : Construct} {ts : List Tree}
      (production : ⟨l, ts.map symbol⟩ ∈ productions c) (children : ∀ t ∈ ts, WellFormed t) :
      WellFormed (.node c l ts)

theorem WellFormed.production {c : Category} {l : Construct} {ts : List Tree}
    (h : WellFormed (.node c l ts)) : ⟨l, ts.map symbol⟩ ∈ productions c := by
  cases h
  assumption

theorem WellFormed.children {c : Category} {l : Construct} {ts : List Tree}
    (h : WellFormed (.node c l ts)) : ∀ t ∈ ts, WellFormed t := by
  cases h
  assumption

end Tree

theorem Reads.wellFormed {q q' : State} {i j : Place} {ts : List Tree} (h : Reads q i ts q' j)
    (hq : q ∈ State.all) : ∀ t ∈ ts, t.WellFormed := by
  induction h with
  | nil => simp
  | leaf hlook hshift _ ih =>
    have := ih (State.mem_all_of_move? (s := .token _) hshift)
    simp only [List.mem_cons, forall_eq_or_imp]
    exact ⟨.leaf _, this⟩
  | node hcs hlook hr hsize hinner hgoto _ ihcs ih =>
    have := ih (State.mem_all_of_move? (s := .category _) hgoto)
    simp only [List.mem_cons, forall_eq_or_imp]
    exact ⟨.node (hcs.production hq hr hsize) (ihcs hq), this⟩

/-! ## Enough steps -/

/-- How many nodes may stand one above the other on a single token, up to a node of a category. -/
def Category.height : Category → Nat
  | .lastStatement | .elseClause | .bindingList | .parameterList | .primaryExpression
  | .callArguments | .simpleType | .genericParameterList | .elseifClauses | .attributes
  | .elseifExpressions => 2
  | .suffixedExpression | .postfixType => 3
  | .statement | .assignmentTargets | .simpleExpression | .type => 4
  | .typeAssertion | .typeOrPack | .statements => 5
  | .unaryExpression | .typeListItem => 6
  | .expression | .typeList => 7
  | .expressionList | .tableField => 8
  | _ => 1

/-- The weight of a symbol: a token pays for sixty nodes. Only blocks may have no token. -/
def symbolWeight : GrammarSymbol → Int
  | .token _ => -60
  | .category .block => 1
  | .category .chunk => 2
  | .category c => c.height - 60

theorem productions_weight_checked :
    (Category.all.all fun c => (productions c).all fun p =>
      1 + (p.body.map symbolWeight).sum ≤ symbolWeight (.category c)) = true := by
  decide

namespace Tree

mutual

/-- A tree has no more nodes than its tokens pay for. -/
theorem steps_le {t : Tree} (h : t.WellFormed) :
    (t.steps : Int) ≤ 62 * t.tokens.length + symbolWeight t.symbol := by
  match t, h with
  | leaf t, _ => simp [steps, tokens, symbol, symbolWeight]
  | node c l ts, h =>
    have hchildren := stepsOf_le h.children
    have hweight := List.all_eq_true.1 (List.all_eq_true.1 productions_weight_checked c
      (Category.mem_all c)) _ h.production
    rw [decide_eq_true_eq, List.map_map] at hweight
    simp only [steps, tokens, symbol, Int.natCast_add, Int.natCast_one]
    simp only [Function.comp_def] at hweight
    omega

theorem stepsOf_le {ts : List Tree} (h : ∀ t ∈ ts, t.WellFormed) :
    (stepsOf ts : Int) ≤
      62 * (tokensOf ts).length + (ts.map fun t => symbolWeight t.symbol).sum := by
  match ts, h with
  | [], _ => simp [stepsOf, tokensOf]
  | t :: ts, h =>
    have hfirst := steps_le (h t List.mem_cons_self)
    have hothers := stepsOf_le fun t' ht' => h t' (List.mem_cons_of_mem _ ht')
    simp only [stepsOf, tokensOf, List.length_append, List.map_cons, List.sum_cons, Int.natCast_add]
    omega

end

end Tree

/-- Only a block may have no token. -/
theorem Tree.WellFormed.tokens_ne_nil {t : Tree} (h : t.WellFormed)
    (hblock : t.symbol ≠ .category .block) (hchunk : t.symbol ≠ .category .chunk) :
    t.tokens ≠ [] := by
  intro hnil
  have hsteps := Tree.steps_le h
  rw [hnil] at hsteps
  have hpos : 0 < t.steps := by
    cases t with
    | leaf t => exact Nat.succ_pos 1
    | node c l ts =>
      simp only [Tree.steps]
      omega
  have hheight (c : Category) : c.height ≤ 8 := by cases c <;> decide
  cases t with
  | leaf t => contradiction
  | node c l ts =>
    have := hheight c
    simp only [Tree.symbol] at hblock hchunk hsteps
    have hweight : symbolWeight (.category c) = c.height - 60 := by
      cases c <;> first | rfl | exact absurd rfl hblock | exact absurd rfl hchunk
    rw [hweight, List.length_nil] at hsteps
    omega

/-- The tokens of what is read lie in what is passed. -/
theorem Reads.length_tokens {q q' : State} {i j : Place} {ts : List Tree}
    (h : Reads q i ts q' j) : (Tree.tokensOf ts).length + j.rest.length ≤ i.rest.length := by
  induction h with
  | nil => simp [Tree.tokensOf]
  | leaf hlook _ _ ih =>
    obtain ⟨hrest, -, -⟩ := Place.scan_of_look hlook
    obtain ⟨-, hne, -, -, -⟩ := Place.token_of_look hlook
    have := List.length_pos_iff.2 hne
    simp only [Tree.tokensOf, Tree.tokens, List.length_append, List.length_singleton] at ih ⊢
    rw [hrest, List.length_append, List.length_append]
    omega
  | node _ _ _ _ _ _ _ ihcs ih =>
    simp only [Tree.tokensOf, Tree.tokens, List.length_append] at ihcs ih ⊢
    omega

theorem ReadsChunk.symbol {source : List Char} {b : Tree} (h : ReadsChunk source b) :
    b.symbol = .category .block := by
  obtain ⟨q, j, s, r, hreads, -, hr, hhead⟩ := h
  obtain ⟨-, hconstruct, hsize, -⟩ := State.chunk_of_reduction?
    (hreads.mem_all State.initial_mem_all) hr hhead
  have hmem := hreads.production State.initial_mem_all hr hsize.symm
  rw [hhead, hconstruct] at hmem
  simpa [productions, rule, Rule.productions, Side.n, Ebnf.category, Ebnf.forms] using hmem

/-- A block is read where nothing but white space and comments is left, and makes a chunk there. -/
theorem ReadsChunk.to_end {source : List Char} {b : Tree} (h : ReadsChunk source b) :
    ∃ q j r p, Reads .initial (.start source) [b] q j ∧ j.look = some ⟨none, p, []⟩ ∧
      q.reduction? none = some r ∧ r.head = .chunk := by
  obtain ⟨q, j, ⟨token, p, rest⟩, r, hreads, hlook, hr, hhead⟩ := h
  have hend := (State.chunk_of_reduction? (hreads.mem_all State.initial_mem_all) hr hhead).1
  obtain rfl : token = none := Option.map_eq_none_iff.1 hend
  obtain ⟨-, -, rfl⟩ := Place.look_eq_end_iff.1 hlook
  exact ⟨q, j, r, p, hreads, hlook, hr, hhead⟩

/-- The parse trees of a source are the trees that are read from its start to its end. -/
theorem parseTree_eq_ok_iff {source : List Char} {t : Tree} :
    parseTree source = .ok t ↔ ∃ b, ReadsChunk source b ∧ t = .node .chunk .spliced [b] := by
  constructor
  · exact fun h => Stacked.nil.sound (Configuration.Stands.unread rfl) h
  · rintro ⟨b, h, rfl⟩
    refine Configuration.run_of_le h.run ?_
    have hsymbol := h.symbol
    obtain ⟨q, j, s, r, hreads, -, -, -⟩ := h
    have hsteps := Tree.steps_le (hreads.wellFormed State.initial_mem_all b
      (List.mem_singleton.2 rfl))
    have hlength := hreads.length_tokens
    rw [hsymbol] at hsteps
    simp only [symbolWeight] at hsteps
    simp only [Tree.tokensOf, List.append_nil, Place.start] at hlength
    unfold stepBound
    omega

end TypedLinks.Luau
