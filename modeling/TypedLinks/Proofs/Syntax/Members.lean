import Mathlib.Data.List.Forall2
import TypedLinks.Proofs.Syntax.Shape

/-!
# Members of a series

A series is a left-recursive category, such as the statements of a block. Its members are the trees
that are left when the nodes of the series are taken away; they contribute what the series does.
-/

namespace TypedLinks.Luau

open Grammar

theorem exists_getElem?_of_forall₂ {α β : Type} {R : α → β → Prop} {as : List α} {bs : List β}
    (h : List.Forall₂ R as bs) {k : Nat} {b : β} (hb : bs[k]? = some b) :
    ∃ a, as[k]? = some a ∧ R a b := by
  induction h generalizing k with
  | nil => contradiction
  | @cons a b' as bs hab _ ih =>
    cases k with
    | zero =>
      cases hb
      exact ⟨a, rfl, hab⟩
    | succ k => exact ih hb

namespace Tree

variable {t u : Tree} {ts us : List Tree} {ps : List Part} {span : Option Span} {c : Category}

/-! ## Children by their symbols -/

theorem symbol_eq_token_iff {x : Terminal} :
    t.symbol = .token x ↔ ∃ tok, t = leaf tok ∧ tok.terminal = x := by
  cases t <;> simp [symbol]

theorem symbol_eq_category_iff : t.symbol = .category c ↔ ∃ l ts, t = node c l ts := by
  cases t with
  | leaf tok => simp [symbol]
  | node c' l ts =>
    simp only [symbol, Symbol.category.injEq, node.injEq]
    exact ⟨fun h => ⟨l, ts, h, rfl, rfl⟩, fun ⟨_, _, h, _⟩ => h⟩

theorem map_symbol_eq_token_cons {x : Terminal} {ss : List GrammarSymbol} :
    ts.map symbol = .token x :: ss ↔
      ∃ tok us, ts = leaf tok :: us ∧ tok.terminal = x ∧ us.map symbol = ss := by
  rw [List.map_eq_cons_iff]
  constructor
  · rintro ⟨t, us, rfl, ht, hus⟩
    obtain ⟨tok, rfl, hx⟩ := symbol_eq_token_iff.1 ht
    exact ⟨tok, us, rfl, hx, hus⟩
  · rintro ⟨tok, us, rfl, rfl, hus⟩
    exact ⟨leaf tok, us, rfl, rfl, hus⟩

theorem map_symbol_eq_category_cons {ss : List GrammarSymbol} :
    ts.map symbol = .category c :: ss ↔
      ∃ t us, ts = t :: us ∧ t.symbol = .category c ∧ us.map symbol = ss := by
  rw [List.map_eq_cons_iff]

/-! ## Taking a series apart -/

mutual

/-- The members of a series: what is left of a tree without the nodes of a category at its top. -/
def members (c : Category) : Tree → List Tree
  | leaf t => [leaf t]
  | node c' l ts => if c' = c then membersOf c ts else [node c' l ts]

/-- The members of a series in several trees. -/
def membersOf (c : Category) : List Tree → List Tree
  | [] => []
  | t :: ts => t.members c ++ membersOf c ts

end

theorem membersOf_eq_flatMap (c : Category) (ts : List Tree) :
    membersOf c ts = ts.flatMap (members c) := by
  induction ts with
  | nil => rfl
  | cons t ts ih => rw [membersOf, List.flatMap_cons, ih]

theorem membersOf_append (c : Category) (ts us : List Tree) :
    membersOf c (ts ++ us) = membersOf c ts ++ membersOf c us := by
  rw [membersOf_eq_flatMap, membersOf_eq_flatMap, membersOf_eq_flatMap, List.flatMap_append]

theorem mem_membersOf : u ∈ membersOf c ts ↔ ∃ t ∈ ts, u ∈ t.members c := by
  rw [membersOf_eq_flatMap, List.mem_flatMap]

/-- The symbols of the productions of a category, itself apart. -/
def memberSymbols (c : Category) : List GrammarSymbol :=
  (productions c).flatMap fun p => p.body.filter (· != .category c)

/-- A member is the tree itself, or a symbol of the series. -/
theorem WellFormed.member (h : t.WellFormed) (hu : u ∈ t.members c) :
    u.WellFormed ∧ (u.symbol = t.symbol ∧ t.symbol ≠ .category c ∨ u.symbol ∈ memberSymbols c) := by
  induction h with
  | leaf t =>
    rw [members, List.mem_singleton] at hu
    subst hu
    exact ⟨.leaf t, .inl ⟨rfl, by simp [symbol]⟩⟩
  | @node c' l ts hproduction hchildren ih =>
    rw [members] at hu
    split at hu
    · rename_i hc
      subst hc
      obtain ⟨t, ht, hmem⟩ := mem_membersOf.1 hu
      obtain ⟨hwell, hsymbol⟩ := ih t ht hmem
      refine ⟨hwell, .inr ?_⟩
      rcases hsymbol with ⟨heq, hne⟩ | hsymbol
      · rw [heq]
        refine List.mem_flatMap.2 ⟨_, hproduction, List.mem_filter.2 ⟨?_, by simpa using hne⟩⟩
        exact List.mem_map_of_mem ht
      · exact hsymbol
    · rename_i hc
      rw [List.mem_singleton] at hu
      subst hu
      exact ⟨.node hproduction hchildren, .inl ⟨rfl, by simpa [symbol] using hc⟩⟩

/-- A series contributes what its members do. -/
theorem WellFormed.partsOf_members (hc : ∀ p ∈ productions c, p.construct = .spliced)
    (h : t.WellFormed) (hparts : t.parts = .ok (ps, span)) :
    partsOf (t.members c) = .ok (ps, span) := by
  induction h generalizing ps span with
  | leaf t => exact partsOf_singleton.2 hparts
  | @node c' l ts hproduction hchildren ih =>
    rw [members]
    split
    · rename_i hcc
      subst hcc
      obtain rfl := hc _ hproduction
      obtain ⟨own, hown, hcontribute⟩ := parts_node_eq_ok.1 hparts
      rw [contribute_spliced] at hcontribute
      cases hcontribute
      clear hparts hproduction
      induction ts generalizing ps span with
      | nil => exact hown
      | cons t ts ihts =>
        obtain ⟨first, s, others, s', ht, hts, rfl, rfl⟩ := partsOf_cons_eq_ok.1 hown
        exact partsOf_append_eq_ok.2 ⟨first, s, others, s', ih t List.mem_cons_self ht,
          ihts (fun u hu => hchildren u (List.mem_cons_of_mem _ hu))
            (fun u hu => ih u (List.mem_cons_of_mem _ hu)) hts, rfl, rfl⟩
    · exact partsOf_singleton.2 hparts

theorem WellFormed.partsOf_membersOf (hc : ∀ p ∈ productions c, p.construct = .spliced)
    (h : ∀ t ∈ ts, t.WellFormed) (hparts : partsOf ts = .ok (ps, span)) :
    partsOf (membersOf c ts) = .ok (ps, span) := by
  induction ts generalizing ps span with
  | nil => exact hparts
  | cons t ts ih =>
    obtain ⟨first, s, others, s', ht, hts, rfl, rfl⟩ := partsOf_cons_eq_ok.1 hparts
    exact partsOf_append_eq_ok.2 ⟨first, s, others, s',
      (h t List.mem_cons_self).partsOf_members hc ht,
      ih (fun u hu => h u (List.mem_cons_of_mem _ hu)) hts, rfl, rfl⟩

/-! ## Members and their parts -/

/-- The trees of a category among some trees contribute one part each, and together they are the
parts of a kind that no other of the trees contributes. -/
theorem forall₂_parts {α : Type} {k : PartKind} {select : Part → Option α}
    (hshape : c.shape = .one k) (hselect : ∀ p, p.kind ≠ k → select p = none)
    (hselect' : ∀ p, p.kind = k → (select p).isSome)
    (h : ∀ t ∈ ts, t.WellFormed ∧ (t.symbol = .category c ∨ k ∉ (symbolShape t.symbol).kinds))
    (hparts : partsOf ts = .ok (ps, span)) :
    List.Forall₂ (fun t a => t.WellFormed ∧ t.symbol = .category c ∧
        ∃ p s, t.parts = .ok ([p], s) ∧ select p = some a ∧ p.Covers s)
      (ts.filter (·.symbol = .category c)) (ps.filterMap select) := by
  induction ts generalizing ps span with
  | nil =>
    cases hparts
    exact .nil
  | cons t ts ih =>
    obtain ⟨first, s, others, s', ht, hts, rfl, rfl⟩ := partsOf_cons_eq_ok.1 hparts
    have hrest := ih (fun u hu => h u (List.mem_cons_of_mem _ hu)) hts
    obtain ⟨hwell, hsymbol⟩ := h t List.mem_cons_self
    have hfits := hwell.fits ht
    rw [List.filterMap_append]
    by_cases htc : t.symbol = .category c
    · rw [htc, symbolShape, hshape] at hfits
      obtain ⟨p, rfl, hk, hcovers⟩ := hfits
      obtain ⟨a, ha⟩ := Option.isSome_iff_exists.1 (hselect' p hk)
      rw [List.filter_cons_of_pos (by simpa using htc), List.filterMap_cons_some ha]
      exact .cons ⟨hwell, htc, p, s, ht, ha, hcovers⟩ hrest
    · have hnone : first.filterMap select = [] := by
        rw [List.filterMap_eq_nil_iff]
        intro p hp
        refine hselect p fun hk => hsymbol.elim htc fun hnot => hnot ?_
        rw [← hk]
        exact hfits.kind_mem p hp
      rw [List.filter_cons_of_neg (by simpa using htc), hnone]
      exact hrest

/-- The members of a category in a series, among some trees, contribute one part each, and together
they are the parts of a kind that nothing else there contributes. -/
theorem forall₂_members {α : Type} {d : Category} {k : PartKind} {f : Part → Option α}
    (hshape : c.shape = .one k) (hselect : ∀ p, p.kind ≠ k → f p = none)
    (hselect' : ∀ p, p.kind = k → (f p).isSome)
    (hspliced : ∀ p ∈ productions d, p.construct = .spliced)
    (hsymbols : ∀ s ∈ ts.map symbol,
      s = .category d ∨ s = .category c ∨ k ∉ (symbolShape s).kinds)
    (hmembers : ∀ s ∈ memberSymbols d, s = .category c ∨ k ∉ (symbolShape s).kinds)
    (hwell : ∀ t ∈ ts, t.WellFormed) (hparts : partsOf ts = .ok (ps, span)) :
    List.Forall₂ (fun t a => t.WellFormed ∧ t.symbol = .category c ∧
        ∃ p s, t.parts = .ok ([p], s) ∧ f p = some a ∧ p.Covers s)
      ((membersOf d ts).filter (·.symbol = .category c)) (ps.filterMap f) := by
  refine forall₂_parts hshape hselect hselect' ?_ (WellFormed.partsOf_membersOf hspliced hwell hparts)
  intro u hu
  obtain ⟨t, ht, hmem⟩ := mem_membersOf.1 hu
  obtain ⟨hu', hsymbol⟩ := (hwell t ht).member hmem
  refine ⟨hu', ?_⟩
  rcases hsymbol with ⟨heq, hne⟩ | hmem
  · rw [← heq] at hne
    exact (hsymbols _ (heq ▸ List.mem_map_of_mem ht)).resolve_left hne
  · exact hmembers _ hmem

end Tree

end TypedLinks.Luau
