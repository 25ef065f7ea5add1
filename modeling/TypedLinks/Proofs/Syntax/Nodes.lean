import Mathlib.Data.Set.List
import TypedLinks.Proofs.Syntax.Chunk

/-!
# Nodes and their tokens

The nodes of the syntax of a source with their children in order. Every node spans a run of tokens, and
its children span runs inside that, one behind the other: whatever a construct is built from, the
nodes among the parts of its children keep their order, and the new node takes in all of them.
-/

namespace TypedLinks.Luau

open Grammar

/-! ## Nodes -/

/-- A node of the syntax of a source. -/
inductive SyntaxNode where
  | statement (s : Statement)
  | returned (r : Return)
  | expression (e : Expression)
  | type (t : TypeNode)
  | generic (g : GenericParameter)

/-- The expressions that an expression is made of, in order. -/
def Expression.operands : Expression → List Expression
  | .parenthesized _ inner => [inner]
  | .field _ base _ => [base]
  | .key _ base k => [base, k]
  | .call _ callee arguments _ => callee :: arguments
  | .methodCall _ receiver _ arguments _ => receiver :: arguments
  | .name .. | .string .. | .plain .. => []

namespace SyntaxNode

/-- The extent of a node. -/
def span : SyntaxNode → Span
  | statement s => s.span
  | returned r => r.span
  | expression e => e.span
  | type t => t.span
  | generic g => g.span

/-- The nodes that a node is made of, in order. -/
def children : SyntaxNode → List SyntaxNode
  | statement (.localAssignment _ _ es) => es.map expression
  | statement (.typeDeclaration d) => (d.generics.getD []).map generic ++ [type d.body]
  | statement _ => []
  | returned r => r.expressions.map expression
  | expression e => e.operands.map expression
  | type (.typeof _ e) => [expression e]
  | type t => t.parts.map type
  | generic g => g.default.toList.map type

end SyntaxNode

/-- The statements of a block and the `return` that ends it. -/
def Block.nodes (b : Block) : List SyntaxNode :=
  b.statements.map .statement ++ b.last.toList.map .returned

/-- The nodes below a chunk. -/
inductive Chunk.HasNode (c : Chunk) : SyntaxNode → Prop where
  | top {n : SyntaxNode} (mem : n ∈ c.block.nodes) : HasNode c n
  | child {m n : SyntaxNode} (parent : HasNode c m) (mem : n ∈ m.children) : HasNode c n

/-! ## Nodes of parts -/

/-- The nodes of a part that are not inside another of its nodes. -/
def Part.nodes : Part → List SyntaxNode
  | token _ | binding _ | bindings _ => []
  | block b => b.nodes
  | statement s => [.statement s]
  | returned r => [.returned r]
  | expression e => [.expression e]
  | expressions es | arguments es _ => es.map .expression
  | type t => [.type t]
  | types ts => ts.map .type
  | generic g => [.generic g]
  | generics gs => gs.map .generic

/-- The nodes of several parts. -/
def nodesOf (ps : List Part) : List SyntaxNode := ps.flatMap Part.nodes

@[simp] theorem nodesOf_nil : nodesOf [] = [] := rfl

@[simp] theorem nodesOf_cons (p : Part) (ps : List Part) : nodesOf (p :: ps) = p.nodes ++ nodesOf ps :=
  List.flatMap_cons

@[simp] theorem nodesOf_append (ps qs : List Part) : nodesOf (ps ++ qs) = nodesOf ps ++ nodesOf qs :=
  List.flatMap_append

theorem sublist_nodesOf {α : Type} {f : Part → Option α} {wrap : α → SyntaxNode}
    (h : ∀ p a, f p = some a → p.nodes = [wrap a]) (ps : List Part) :
    ((ps.filterMap f).map wrap).Sublist (nodesOf ps) := by
  induction ps with
  | nil => exact List.Sublist.slnil
  | cons p ps ih =>
    rw [nodesOf_cons]
    cases hp : f p with
    | none =>
      rw [List.filterMap_cons_none hp]
      exact ih.trans (List.sublist_append_right _ _)
    | some a =>
      rw [List.filterMap_cons_some hp, List.map_cons, h p a hp]
      exact ih.cons_cons _

theorem expressions_sublist (ps : List Part) :
    ((ps.filterMap Part.expression?).map .expression).Sublist (nodesOf ps) :=
  sublist_nodesOf (by rintro (_ | _) a h <;> first | contradiction | (cases h; rfl)) ps

theorem types_sublist (ps : List Part) :
    ((ps.filterMap Part.type?).map .type).Sublist (nodesOf ps) :=
  sublist_nodesOf (by rintro (_ | _) a h <;> first | contradiction | (cases h; rfl)) ps

theorem generics_sublist (ps : List Part) :
    ((ps.filterMap Part.generic?).map .generic).Sublist (nodesOf ps) :=
  sublist_nodesOf (by rintro (_ | _) a h <;> first | contradiction | (cases h; rfl)) ps

/-- What a construct with an extent makes of the nodes of its parts: it passes them on, or puts them
below one node of its own extent; in either case some may be dropped. -/
def Gathers (s : Span) (own : List Part) (p : Part) : Prop :=
  p.nodes.Sublist (nodesOf own) ∨
    ∃ n, p.nodes = [n] ∧ n.span = s ∧ n.children.Sublist (nodesOf own)

section Gathers

variable {s : Span} {own : List Part} {p : Part}

theorem gathers_typeDeclaration {d : TypeDeclaration} (h : typeDeclaration? s own = some d) :
    Gathers s own (.statement (.typeDeclaration d)) := by
  refine .inr ⟨_, rfl, span_of_typeDeclaration? h, ?_⟩
  have hdeclared {f : Bool → TypeDeclaration} (ps : List Part) (b : Bool)
      (hf : typeDeclaration?.declared s ps = some f) :
      (SyntaxNode.statement (.typeDeclaration (f b))).children.Sublist (nodesOf ps) := by
    unfold typeDeclaration?.declared at hf
    split at hf <;>
      first | contradiction | (cases hf; simp [SyntaxNode.children, Part.nodes])
  unfold typeDeclaration? at h
  split at h
  · obtain ⟨f, hf, rfl⟩ := Option.map_eq_some_iff.1 h
    exact hdeclared _ true hf |>.trans (by simp [Part.nodes])
  · obtain ⟨f, hf, rfl⟩ := Option.map_eq_some_iff.1 h
    exact hdeclared _ false hf

theorem gathers_methodCall {e : Expression} (h : methodCall? s own = some e) :
    Gathers s own (.expression e) := by
  refine .inr ⟨_, rfl, span_of_methodCall? h, ?_⟩
  unfold methodCall? at h
  split at h <;> first | contradiction | skip
  · cases h
    simp [SyntaxNode.children, Expression.operands, Part.nodes]
  · cases h
    simp [SyntaxNode.children, Expression.operands, Part.nodes]

theorem gathers_functionType {t : TypeNode} (h : functionType? s own = some t) :
    Gathers s own (.type t) := by
  refine .inr ⟨_, rfl, span_of_functionType? h, ?_⟩
  unfold functionType? at h
  split at h <;>
    first | contradiction | (cases h; simp [SyntaxNode.children, TypeNode.parts, Part.nodes])

theorem gathers_typeReference {t : TypeNode} (h : typeReference? s own = some t) :
    Gathers s own (.type t) := by
  refine .inr ⟨_, rfl, span_of_typeReference? h, ?_⟩
  unfold typeReference? at h
  split at h <;>
    first | contradiction | (cases h; simp [SyntaxNode.children, TypeNode.parts, Part.nodes])

theorem gathers_genericParameter {variadic : Bool} {g : GenericParameter}
    (h : genericParameter? s variadic own = some g) : Gathers s own (.generic g) := by
  refine .inr ⟨_, rfl, span_of_genericParameter? h, ?_⟩
  unfold genericParameter? at h
  split at h <;>
    first | contradiction | (cases h; simp [SyntaxNode.children, Part.nodes])

theorem gathers_parenthesizedType (ts : List TypeNode)
    (h : (ts.map .type).Sublist (nodesOf own)) : Gathers s own (.type (parenthesizedType s ts)) := by
  refine .inr ⟨_, rfl, span_parenthesizedType s ts, ?_⟩
  unfold parenthesizedType
  split <;> exact h

/-- Every construct but a block gathers the nodes of its parts. -/
theorem gathers_of_assemble {l : Construct} (hl : l ≠ .block) (h : assemble l s own = .ok p) :
    Gathers s own p := by
  cases assemble_eq_ok_iff.1 h with
  | block => exact absurd rfl hl
  | statement | callStatement | localNames | typeFunction | returnNothing | plain | string | name
  | nilType | genericPack => exact .inr ⟨_, rfl, rfl, List.nil_sublist _⟩
  | bindingList | binding | noArguments => exact .inl (List.nil_sublist _)
  | expressionList => exact .inl (expressions_sublist own)
  | types => exact .inl (types_sublist own)
  | genericParameterList => exact .inl (generics_sublist own)
  | composite => exact .inr ⟨_, rfl, rfl, types_sublist own⟩
  | parenthesizedArguments | tableArguments | stringArguments =>
    refine .inl ?_
    simp [Part.nodes]
  | localAssignment | returnExpressions | parenthesized | fieldIndex | keyIndex | call
  | typeofType =>
    refine .inr ⟨_, rfl, rfl, ?_⟩
    simp [SyntaxNode.children, Expression.operands, Part.nodes]
  | emptyPack | parenthesizedType => exact gathers_parenthesizedType _ (by simp [Part.nodes])
  | typeDeclaration built => exact gathers_typeDeclaration built
  | methodCall built => exact gathers_methodCall built
  | functionType built => exact gathers_functionType built
  | typeReference built => exact gathers_typeReference built
  | genericParameter built | genericPackParameter built => exact gathers_genericParameter built

end Gathers

/-! ## Blocks -/

namespace Tree

variable {t : Tree} {ts : List Tree} {ps own : List Part} {span : Option Span}

theorem statement_of_continue (h : t.WellFormed) (ht : t.symbol = .category .continueStatement)
    (hparts : t.parts = .ok (ps, span)) : ∃ s, ps = [.statement s] ∧ span = some s.span := by
  have hfits := h.fits hparts
  rw [ht] at hfits
  obtain ⟨p, rfl, hkind, hcovers⟩ := hfits
  cases p <;> first | contradiction | exact ⟨_, rfl, hcovers _ rfl⟩

/-- The last statement of a block contributes one part that starts where it does: a statement or a
`return`. -/
theorem part_of_lastStatement (h : t.WellFormed) (ht : t.symbol = .category .lastStatement)
    (hparts : t.parts = .ok (ps, span)) :
    (∃ s stop, ps = [.statement s] ∧ span = some ⟨s.span.start, stop⟩) ∨
      ∃ r, ps = [.returned r] ∧ span = some r.span := by
  have hkinds : ∀ p ∈ ps, p.kind ∈ [PartKind.statement, .returned] := by
    have hfits := h.fits hparts
    rw [ht] at hfits
    exact hfits
  obtain ⟨l, us, rfl⟩ := symbol_eq_category_iff.1 ht
  obtain ⟨own, hown, hcontribute⟩ := parts_node_eq_ok.1 hparts
  by_cases hl : l = .spliced
  · subst hl
    rw [contribute_spliced] at hcontribute
    obtain rfl := Except.ok.inj hcontribute
    have hp := h.production
    simp only [productions_lastStatement, List.mem_cons, List.not_mem_nil, or_false,
      Production.mk.injEq, reduceCtorEq, false_and, false_or, true_and,
      map_symbol_eq_category_cons, map_symbol_eq_token_cons, List.map_eq_nil_iff] at hp
    rcases hp with ⟨C, _, rfl, hC, tok, _, rfl, htok, rfl⟩ | ⟨C, _, rfl, hC, rfl⟩
    · obtain ⟨first, s, others, s', hfirst, hothers, rfl, rfl⟩ := partsOf_cons_eq_ok.1 hown
      obtain ⟨c, rfl, rfl⟩ := statement_of_continue (h.children C List.mem_cons_self) hC hfirst
      cases hothers
      exact .inl ⟨c, tok.span.stop, by simp [htok, Terminal.isContent], rfl⟩
    · obtain ⟨c, rfl, rfl⟩ := statement_of_continue (h.children C List.mem_cons_self) hC
        (partsOf_singleton.1 hown)
      exact .inl ⟨c, c.span.stop, rfl, rfl⟩
  · rcases contribute_eq_ok hl hcontribute with ⟨s, p, rfl, hp, rfl⟩ | ⟨-, -, rfl⟩
    · have hcovers := (kind_of_assemble hp).2
      have hkind := hkinds p List.mem_cons_self
      cases p <;> try simp [Part.kind] at hkind
      · exact .inl ⟨_, _, rfl, hcovers _ rfl⟩
      · exact .inr ⟨_, rfl, hcovers _ rfl⟩
    · simp [Part.kind] at hkinds

/-- A block keeps the nodes of its parts. -/
theorem nodes_of_block {l : Construct} (h : WellFormed (node .block l ts))
    (hown : partsOf ts = .ok (own, span)) :
    Block.nodes ⟨own.filterMap Part.statement?, own.findSome? Part.returned?⟩ = nodesOf own := by
  obtain ⟨-, first, last, rfl, hfirst, hlast⟩ := block_cases h
  obtain ⟨firstParts, s₁, lastParts, s₂, hfirstParts, hlastParts, rfl, -⟩ :=
    partsOf_append_eq_ok.1 hown
  obtain ⟨ss, rfl⟩ : ∃ ss : List Statement, firstParts = ss.map .statement := by
    have hkinds : ∀ p ∈ firstParts, ∃ s, Part.statement s = p := by
      intro p hp
      rcases hfirst with rfl | ⟨S, rfl, hS⟩
      · cases hfirstParts
        contradiction
      · have hfits := (h.children S (by simp)).fits (partsOf_singleton.1 hfirstParts)
        rw [hS] at hfits
        have hkind := hfits p hp
        cases p <;> simp_all [Part.kind]
    obtain ⟨ss, hss⟩ := (Set.range_list_map Part.statement).ge hkinds
    exact ⟨ss, hss.symm⟩
  have hstatements : (ss.map Part.statement).filterMap Part.statement? = ss := by
    simp [List.filterMap_map, Function.comp_def, Part.statement?]
  have hreturned : (ss.map Part.statement).findSome? Part.returned? = none := by
    simp [Part.returned?]
  have hnodes : nodesOf (ss.map .statement) = ss.map .statement := by
    simp [nodesOf, List.flatMap_map, Part.nodes, ← List.map_eq_flatMap]
  have hlast : lastParts = [] ∨ (∃ s, lastParts = [.statement s]) ∨
      ∃ r, lastParts = [.returned r] := by
    rcases hlast with rfl | ⟨L, rfl, hL⟩
    · cases hlastParts
      exact .inl rfl
    · rw [partsOf_singleton] at hlastParts
      rcases part_of_lastStatement (h.children L (by simp)) hL hlastParts with
        ⟨s, _, hs, -⟩ | ⟨r, hr, -⟩
      · exact .inr (.inl ⟨s, hs⟩)
      · exact .inr (.inr ⟨r, hr⟩)
  rw [nodesOf_append, hnodes, Block.nodes, List.filterMap_append, hstatements,
    List.findSome?_append, hreturned, Option.none_or, List.map_append, List.append_assoc]
  rcases hlast with rfl | ⟨s, rfl⟩ | ⟨r, rfl⟩ <;> rfl

end Tree

/-! ## Runs of tokens -/

/-- Nodes that span runs of some tokens, one behind the other; the children of each span runs inside
its own. -/
inductive Arranged : List SyntaxNode → List Token → Prop where
  | nil (tokens : List Token) : Arranged [] tokens
  | cons {n : SyntaxNode} {ns : List SyntaxNode} (before : List Token) {own after : List Token}
      (extent : Tree.extentOf own = some n.span) (children : Arranged n.children own)
      (others : Arranged ns after) : Arranged (n :: ns) (before ++ own ++ after)

namespace Arranged

variable {ns ms : List SyntaxNode} {xs ys : List Token}

theorem prepend (h : Arranged ns xs) (before : List Token) : Arranged ns (before ++ xs) := by
  cases h with
  | nil => exact .nil _
  | cons before' hextent hchildren hothers =>
    rw [← List.append_assoc, ← List.append_assoc]
    exact .cons (before ++ before') hextent hchildren hothers

theorem append (h : Arranged ns xs) (h' : Arranged ms ys) : Arranged (ns ++ ms) (xs ++ ys) := by
  induction h with
  | nil => exact h'.prepend _
  | cons before hextent hchildren _ _ ih =>
    rw [List.append_assoc, List.cons_append]
    exact .cons before hextent hchildren ih

theorem sublist (h : Arranged ns xs) (hms : ms.Sublist ns) : Arranged ms xs := by
  induction hms generalizing xs with
  | slnil => exact h
  | cons n _ ih =>
    cases h with
    | cons before _ _ hothers => exact (ih hothers).prepend _
  | cons_cons n _ ih =>
    cases h with
    | cons before hextent hchildren hothers => exact .cons before hextent hchildren (ih hothers)

theorem singleton {n : SyntaxNode} (hextent : Tree.extentOf xs = some n.span)
    (hchildren : Arranged n.children xs) : Arranged [n] xs := by
  simpa using cons [] hextent hchildren (nil [])

end Arranged

theorem block_constructs_checked :
    (Category.all.all fun c => (productions c).all fun p =>
      p.construct ≠ .block || c = .block) = true := by
  decide

namespace Tree

variable {t : Tree} {ts : List Tree} {ps own : List Part} {span : Option Span}

theorem arranged_of_partsOf (h : ∀ t ∈ ts, ∀ ps span, t.parts = .ok (ps, span) →
    Arranged (nodesOf ps) t.tokens) (hown : partsOf ts = .ok (own, span)) :
    Arranged (nodesOf own) (tokensOf ts) := by
  induction ts generalizing own span with
  | nil =>
    cases hown
    exact .nil _
  | cons t ts ih =>
    rw [List.forall_mem_cons] at h
    obtain ⟨first, s, others, s', hfirst, hothers, rfl, -⟩ := partsOf_cons_eq_ok.1 hown
    rw [nodesOf_append, tokensOf]
    exact (h.1 _ _ hfirst).append (ih h.2 hothers)

/-- The nodes that a well-formed tree contributes span runs of its tokens. -/
theorem WellFormed.arranged (h : t.WellFormed) (hparts : t.parts = .ok (ps, span)) :
    Arranged (nodesOf ps) t.tokens := by
  induction h generalizing ps span with
  | leaf t =>
    rw [parts] at hparts
    cases hparts
    split <;> exact .nil _
  | @node c l ts hproduction hchildren ih =>
    obtain ⟨own, hown, hcontribute⟩ := parts_node_eq_ok.1 hparts
    have hinner : Arranged (nodesOf own) (tokensOf ts) :=
      arranged_of_partsOf (fun t ht ps span => ih t ht) hown
    rw [tokens]
    by_cases hspliced : l = .spliced
    · subst hspliced
      rw [contribute_spliced] at hcontribute
      obtain rfl := Except.ok.inj hcontribute
      exact hinner
    rcases contribute_eq_ok hspliced hcontribute with ⟨s, p, rfl, hp, rfl⟩ | ⟨-, -, rfl⟩
    · rw [nodesOf_cons, nodesOf_nil, List.append_nil]
      by_cases hblock : l = .block
      · subst hblock
        have hc := List.all_eq_true.1 (List.all_eq_true.1 block_constructs_checked c
          (Category.mem_all c)) _ hproduction
        obtain rfl : c = .block := by simpa using hc
        cases hp
        rw [Part.nodes, nodes_of_block (.node hproduction hchildren) hown]
        exact hinner
      · have hextent := span_of_partsOf hown
        rcases gathers_of_assemble hblock hp with hsub | ⟨n, hn, hspan, hsub⟩
        · exact hinner.sublist hsub
        · rw [hn]
          exact .singleton (by rw [← hextent, hspan]) (hinner.sublist hsub)
    · exact .nil _

end Tree

end TypedLinks.Luau
