import TypedLinks.Forwarding.Forward
import TypedLinks.Proofs.Forwarding.FreeNames
import TypedLinks.Proofs.Syntax.Chunk

/-!
# What a type mentions

The type names in the tree of a type, each with the names that function types bind around it. The
scope check looks at the syntax that the tree is turned into. It sees every mention apart from those
in the generic parameters of a function type, of which only the names become syntax.
-/

namespace TypedLinks

open Luau Grammar

/-! ## Mentions -/

/-- What stands in the place of a type name. -/
inductive Mentioned where
  | name (name : Name)
  /-- A type of a module. -/
  | member (module name : Name)
  /-- The type of an expression. -/
  | typeof
  deriving DecidableEq, Repr

/-- A mention in a type: the names that the function types around it bind, and whether it stands in
the generic parameters of one. -/
structure Mention where
  what : Mentioned
  binders : List Name
  listed : Bool
  deriving DecidableEq, Repr

/-- Whether a mention is of a name that is visible or bound around it. -/
def Mention.isVisible (names : List Name) (m : Mention) : Bool :=
  match m.what with
  | .name n => (names ++ m.binders).contains n
  | _ => false

namespace Luau.Tree

/-- What a node of some children mentions itself. -/
def mentioned (l : Construct) (ts : List Tree) : List Mentioned :=
  match l, ts with
  | .typeReference, leaf m :: leaf _ :: leaf n :: _ => [.member m.text n.text]
  | .typeReference, leaf n :: _ => [.name n.text]
  | .genericPack, leaf n :: _ => [.name n.text]
  | .nilType, _ => [.name "nil".toList]
  | .typeofType, _ => [.typeof]
  | _, _ => []

/-- The names that a node binds in its children: those of the generic parameters of a function
type. -/
def boundNames (l : Construct) (ts : List Tree) : List Name :=
  if l = .functionType then (ts.flatMap parameters).map parameterName else []

mutual

/-- The mentions in the tree of a type. The expression behind `typeof` is not looked into. -/
def mentions (binders : List Name) (listed : Bool) : Tree → List Mention
  | leaf _ => []
  | node c l ts =>
    (mentioned l ts).map (⟨·, binders, listed || c = .genericParameters⟩) ++
      if l = .typeofType then []
      else mentionsOf (binders ++ boundNames l ts) (listed || c = .genericParameters) ts

/-- The mentions in several trees. -/
def mentionsOf (binders : List Name) (listed : Bool) : List Tree → List Mention
  | [] => []
  | t :: ts => t.mentions binders listed ++ mentionsOf binders listed ts

end

mutual

/-- What stands in generic parameters stays there. -/
theorem listed_of_mem_mentions {binders : List Name} {t : Tree} {m : Mention}
    (h : m ∈ t.mentions binders true) : m.listed = true := by
  match t with
  | leaf _ => simp [mentions] at h
  | node c l ts =>
    rw [mentions, List.mem_append] at h
    rcases h with h | h
    · obtain ⟨w, -, rfl⟩ := List.mem_map.1 h
      rfl
    · split at h
      · contradiction
      · exact listed_of_mem_mentionsOf h

theorem listed_of_mem_mentionsOf {binders : List Name} {ts : List Tree} {m : Mention}
    (h : m ∈ mentionsOf binders true ts) : m.listed = true := by
  match ts with
  | [] => simp [mentionsOf] at h
  | t :: ts =>
    rw [mentionsOf, List.mem_append] at h
    rcases h with h | h
    · exact listed_of_mem_mentions h
    · exact listed_of_mem_mentionsOf h

end

end Luau.Tree

/-! ## What the scope check sees -/

/-- Whether every name that a part mentions is among the given ones. -/
def Luau.Part.isResolvable (names : List Name) : Part → Bool
  | .type t => t.isResolvable names
  | .types ts => TypeNode.allResolvable names ts
  | _ => true

/-- Whether a mention is seen by the scope check only if it is visible. -/
def Mention.Passes (names : List Name) (m : Mention) : Prop :=
  m.listed = true ∨ m.isVisible names = true

namespace Luau.Tree

open TypeNode

variable {names : List Name} {ts : List Tree} {own : List Part} {span : Option Span} {p : Part}

theorem isResolvable_parenthesizedType (s : Span) (types : List TypeNode) :
    (parenthesizedType s types).isResolvable names = allResolvable names types := by
  unfold parenthesizedType
  split <;> rfl

/-- Tokens and types are resolvable if the types are. -/
theorem allResolvable_types (h : ∀ q ∈ own, q.kind = .token ∨ q.kind = .type) :
    allResolvable names (own.filterMap Part.type?) = true ↔
      ∀ q ∈ own, q.isResolvable names = true := by
  rw [allResolvable_eq_true_iff]
  constructor
  · intro hall q hq
    cases q with
    | type t => exact hall t (List.mem_filterMap.2 ⟨_, hq, rfl⟩)
    | token t => rfl
    | _ => exact absurd (h _ hq) (by simp [Part.kind])
  · intro hall t ht
    obtain ⟨q, hq, hqt⟩ := List.mem_filterMap.1 ht
    cases q <;> first | contradiction | skip
    cases hqt
    exact hall _ hq

/-- Constructs that mention nothing themselves and bind nothing. -/
def isTransparent : Construct → Bool
  | .unionType | .optionalType | .singletonType | .tableType | .variadicType | .parenthesizedType
  | .typeArguments | .typeList => true
  | _ => false

theorem isResolvable_of_transparent {l : Construct} {s : Span} (hl : isTransparent l = true)
    (h : assemble l s own = .ok p)
    (hkinds : l ≠ .parenthesizedType → ∀ q ∈ own, q.kind = .token ∨ q.kind = .type) :
    p.isResolvable names = true ↔ ∀ q ∈ own, q.isResolvable names = true := by
  cases assemble_eq_ok_iff.1 h with
  | types list =>
    rw [← allResolvable_types (hkinds (by rintro rfl; simp at list))]
    rfl
  | composite kind =>
    rw [← allResolvable_types (hkinds (by rintro rfl; cases kind))]
    rfl
  | emptyPack => simp [Part.isResolvable, isResolvable_parenthesizedType, allResolvable]
  | parenthesizedType => simp [Part.isResolvable, isResolvable_parenthesizedType]
  | plain kind => cases l <;> contradiction
  | _ => contradiction

/-- If the scope check sees the mentions of each of some trees, it sees those of all. -/
theorem forall_mentionsOf_iff {binders : List Name} {names' : List Name}
    (hchild : ∀ t ∈ ts, ∀ ps s, t.parts = .ok (ps, s) →
      ((∀ q ∈ ps, q.isResolvable names' = true) ↔
        ∀ m ∈ t.mentions binders false, m.Passes names))
    (hparts : partsOf ts = .ok (own, span)) :
    (∀ q ∈ own, q.isResolvable names' = true) ↔
      ∀ m ∈ mentionsOf binders false ts, m.Passes names := by
  induction ts generalizing own span with
  | nil =>
    cases hparts
    simp [mentionsOf]
  | cons t ts ih =>
    obtain ⟨first, s, others, s', hfirst, hothers, rfl, -⟩ := partsOf_cons_eq_ok.1 hparts
    rw [mentionsOf]
    simp only [List.mem_append, or_imp, forall_and]
    exact and_congr (hchild t List.mem_cons_self first s hfirst)
      (ih (fun u hu => hchild u (List.mem_cons_of_mem _ hu)) hothers)

/-! ## Categories of types -/

/-- The categories that types are made of, apart from generic parameters. -/
def isTypeCategory : Category → Bool
  | .type | .typeOperator | .postfixType | .simpleType | .typeReference | .typeArguments | .typeList
  | .typeListItem | .typeOrPack | .tableType | .tableTypeField | .access | .propertyName
  | .furtherTypesOrPacks | .furtherMembers | .furtherListItems | .furtherTypeFields
  | .fieldSeparator => true
  | _ => false

/-- Whether a symbol is a token or a category that types are made of. -/
def isTypeSymbol : GrammarSymbol → Bool
  | .token _ => true
  | .category c => isTypeCategory c

/-- What a production of a category of types is like, according to its construct. -/
def fitsTypes (p : Production Terminal Category Construct) : Bool :=
  match p.construct with
  | .spliced | .parenthesizedType => p.body.all isTypeSymbol
  | .typeofType => true
  | .nilType => p.body = [.token .kwNil]
  | .genericPack => p.body = [.token .name, .token .ellipsis]
  | .typeReference =>
    p.body = [.token .name, .category .typeArguments] || p.body = [.token .name] ||
      p.body = [.token .name, .token .dot, .token .name, .category .typeArguments] ||
      p.body = [.token .name, .token .dot, .token .name]
  | .functionType =>
    match p.body with
    | .category .genericParameters :: body => body.all isTypeSymbol
    | body => body.all isTypeSymbol
  | l =>
    isTransparent l && p.body.all fun s =>
      isTypeSymbol s && (symbolShape s).kinds.all fun k => k = .token || k = .type

theorem productions_types_checked :
    (Category.all.all fun c => !isTypeCategory c || (productions c).all fitsTypes) = true := by
  decide

theorem fitsTypes_of_mem {c : Category} (hc : isTypeCategory c = true)
    {p : Production Terminal Category Construct} (hp : p ∈ productions c) : fitsTypes p = true := by
  have h := List.all_eq_true.1 productions_types_checked c (Category.mem_all c)
  rw [hc] at h
  exact List.all_eq_true.1 h p hp

theorem fits_of_transparent {l : Construct} (hl : isTransparent l = true)
    {body : List GrammarSymbol} (h : fitsTypes ⟨l, body⟩ = true) :
    (∀ s ∈ body, isTypeSymbol s = true) ∧
      (l ≠ .parenthesizedType → ∀ s ∈ body, ∀ k ∈ (symbolShape s).kinds,
        k = .token ∨ k = .type) := by
  by_cases hparen : l = .parenthesizedType
  · subst hparen
    exact ⟨List.all_eq_true.1 h, fun hne => absurd rfl hne⟩
  · have hall : (body.all fun s =>
        isTypeSymbol s && (symbolShape s).kinds.all fun k => k = .token || k = .type) = true := by
      cases l <;> first | contradiction | exact absurd rfl hparen | exact h
    simp only [List.all_eq_true, Bool.and_eq_true, Bool.or_eq_true, decide_eq_true_eq] at hall
    exact ⟨fun s hs => (hall s hs).1, fun _ s hs => (hall s hs).2⟩

/-! ## Function types and references -/

theorem types_generics_checked :
    (Category.all.all fun c => !isTypeCategory c || !c.shape.kinds.contains .generics) = true := by
  decide

/-- Trees that types are made of declare no generic parameters. -/
theorem no_generics {t : Tree} (h : t.WellFormed) (ht : isTypeSymbol t.symbol = true)
    {ps : List Part} (hparts : t.parts = .ok (ps, span)) :
    t.parameters = [] ∧ ∀ gs, .generics gs ∉ ps := by
  constructor
  · cases t with
    | leaf tok => rfl
    | node c l ts => cases c <;> first | rfl | contradiction
  · intro gs hgs
    have hkind := (h.fits hparts).kind_mem _ hgs
    cases t with
    | leaf tok =>
      simp only [symbol, symbolShape, PartShape.kinds, Part.kind] at hkind
      split at hkind <;> simp at hkind
    | node c l ts =>
      have hchecked := List.all_eq_true.1 types_generics_checked c (Category.mem_all c)
      rw [show isTypeCategory c = true from ht] at hchecked
      simp only [Bool.not_true, Bool.false_or, Bool.not_eq_true', ← Bool.not_eq_true,
        List.contains_iff_mem] at hchecked
      exact hchecked hkind

theorem no_generics_partsOf (h : ∀ t ∈ ts, t.WellFormed)
    (hts : ∀ s ∈ ts.map symbol, isTypeSymbol s = true) (hparts : partsOf ts = .ok (own, span)) :
    ts.flatMap parameters = [] ∧ ∀ gs, .generics gs ∉ own := by
  constructor
  · rw [List.flatMap_eq_nil_iff]
    intro t ht
    obtain ⟨ps, s, hps, -⟩ := parts_of_partsOf hparts ht
    exact (no_generics (h t ht) (hts _ (List.mem_map_of_mem ht)) hps).1
  · intro gs hgs
    obtain ⟨t, ht, ps, s, hps, hmem⟩ := mem_of_partsOf hparts hgs
    exact (no_generics (h t ht) (hts _ (List.mem_map_of_mem ht)) hps).2 gs hmem

/-- The names that a function type binds are those of its generic parameters. -/
theorem boundNames_functionType (h : ∀ t ∈ ts, t.WellFormed)
    (hts : (match ts.map symbol with
      | .category .genericParameters :: body => body.all isTypeSymbol
      | body => body.all isTypeSymbol) = true)
    (hparts : partsOf ts = .ok (own, span)) :
    (∀ gs, .generics gs ∈ own → gs.map (·.name) = boundNames .functionType ts) ∧
      ((∀ gs, .generics gs ∉ own) → boundNames .functionType ts = []) := by
  unfold boundNames
  rw [if_pos rfl]
  split at hts
  · rename_i body hbody
    obtain ⟨G, us, rfl, hG, rfl⟩ := map_symbol_eq_category_cons.1 hbody
    obtain ⟨first, s, others, s', hfirst, hothers, rfl, -⟩ := partsOf_cons_eq_ok.1 hparts
    obtain ⟨hnone, hothers'⟩ := no_generics_partsOf
      (fun t ht => h t (List.mem_cons_of_mem _ ht)) (List.all_eq_true.1 hts) hothers
    obtain ⟨l, vs, rfl⟩ := symbol_eq_category_iff.1 hG
    obtain ⟨gs, rfl, hgs⟩ := parts_genericParameters (h _ List.mem_cons_self) hfirst
    rw [List.flatMap_cons, hnone, List.append_nil]
    constructor
    · intro gs' hgs'
      rcases List.mem_append.1 hgs' with hmem | hmem
      · cases List.mem_singleton.1 hmem
        exact names_of_parameters hgs
      · exact absurd hmem (hothers' gs')
    · intro hall
      exact absurd (List.mem_append_left _ (List.mem_singleton.2 rfl)) (hall gs)
  · obtain ⟨hnone, hown⟩ := no_generics_partsOf h (List.all_eq_true.1 hts) hparts
    rw [hnone]
    exact ⟨fun gs hgs => absurd hgs (hown gs), fun _ => rfl⟩

/-! ## The scope check -/

theorem mentions_of_isTypeCategory {c : Category} {binders : List Name}
    (hc : isTypeCategory c = true) (l : Construct) :
    (node c l ts).mentions binders false =
      (mentioned l ts).map (⟨·, binders, false⟩) ++
        if l = .typeofType then [] else mentionsOf (binders ++ boundNames l ts) false ts := by
  have hlisted : (false || decide (c = .genericParameters)) = false := by
    cases c <;> first | rfl | contradiction
  rw [mentions, hlisted]

theorem mentions_spliced {c : Category} {binders : List Name} (hc : isTypeCategory c = true)
    {l : Construct} (hl : l = .spliced ∨ isTransparent l = true) :
    (node c l ts).mentions binders false = mentionsOf binders false ts := by
  have hplain : mentioned l ts = [] ∧ boundNames l ts = [] ∧ l ≠ .typeofType := by
    rcases hl with rfl | hl
    · exact ⟨rfl, rfl, by decide⟩
    · cases l <;> first | contradiction | exact ⟨rfl, rfl, by decide⟩
  rw [mentions_of_isTypeCategory hc, hplain.1, hplain.2.1, if_neg hplain.2.2, List.append_nil]
  rfl

/-- The generic parameters of a function type hide their mentions. -/
theorem passes_genericParameters {binders : List Name} {t : Tree}
    (ht : t.symbol = .category .genericParameters) :
    ∀ m ∈ t.mentions binders false, m.Passes names := by
  intro m hm
  obtain ⟨l, ts, rfl⟩ := symbol_eq_category_iff.1 ht
  rw [mentions, List.mem_append] at hm
  rcases hm with hm | hm
  · obtain ⟨w, -, rfl⟩ := List.mem_map.1 hm
    exact .inl rfl
  · split at hm
    · contradiction
    · exact .inl (listed_of_mem_mentionsOf hm)

/-- What a function type binds is in its parts. -/
theorem functionType?_isResolvable {s : Span} {ty : TypeNode} (h : functionType? s own = some ty)
    {bound : List Name}
    (hbound : ∀ gs, .generics gs ∈ own → gs.map (·.name) = bound)
    (hnone : (∀ gs, .generics gs ∉ own) → bound = []) :
    ty.isResolvable names = true ↔ ∀ q ∈ own, q.isResolvable (names ++ bound) = true := by
  unfold functionType? at h
  split at h <;> first | contradiction | cases h
  · rw [hnone (by simp)]
    simp [TypeNode.isResolvable, allResolvable, Part.isResolvable]
  · rw [hnone (by simp)]
    simp [TypeNode.isResolvable, Part.isResolvable]
  · rw [← hbound _ List.mem_cons_self]
    simp [TypeNode.isResolvable, allResolvable, Part.isResolvable]
  · rw [← hbound _ List.mem_cons_self]
    simp [TypeNode.isResolvable, Part.isResolvable]

/-- The children of a function type are its generic parameters and types. -/
theorem functionType_children (hfits : fitsTypes ⟨.functionType, ts.map symbol⟩ = true) {t : Tree}
    (ht : t ∈ ts) : t.symbol = .category .genericParameters ∨ isTypeSymbol t.symbol = true := by
  have hmem := List.mem_map_of_mem (f := symbol) ht
  simp only [fitsTypes] at hfits
  split at hfits
  · rename_i body hbody
    rw [hbody] at hmem
    exact (List.mem_cons.1 hmem).imp_right (List.all_eq_true.1 hfits _)
  · exact .inr (List.all_eq_true.1 hfits _ hmem)

/-! ## References -/

/-- Whether trees are the arguments of a reference, which may be missing. -/
def AreArguments (ts : List Tree) : Prop :=
  ts.map symbol = [.category .typeArguments] ∨ ts.map symbol = []

/-- A reference names a type or a type of a module. -/
theorem typeReference_children (hfits : fitsTypes ⟨.typeReference, ts.map symbol⟩ = true) :
    (∃ n rest, ts = leaf n :: rest ∧ n.terminal = .name ∧ AreArguments rest) ∨
      ∃ m d n rest, ts = leaf m :: leaf d :: leaf n :: rest ∧ m.terminal = .name ∧
        d.terminal = .dot ∧ n.terminal = .name ∧ AreArguments rest := by
  simp only [fitsTypes, Bool.or_eq_true, decide_eq_true_eq, map_symbol_eq_token_cons] at hfits
  rcases hfits with ((⟨n, rest, rfl, hn, hrest⟩ | ⟨n, rest, rfl, hn, hrest⟩) |
    ⟨m, _, rfl, hm, d, _, rfl, hd, n, rest, rfl, hn, hrest⟩) |
    ⟨m, _, rfl, hm, d, _, rfl, hd, n, rest, rfl, hn, hrest⟩
  · exact .inl ⟨n, rest, rfl, hn, .inl hrest⟩
  · exact .inl ⟨n, rest, rfl, hn, .inr hrest⟩
  · exact .inr ⟨m, d, n, rest, rfl, hm, hd, hn, .inl hrest⟩
  · exact .inr ⟨m, d, n, rest, rfl, hm, hd, hn, .inr hrest⟩

theorem mentioned_typeReference_name {n : Token} (h : AreArguments ts) :
    mentioned .typeReference (leaf n :: ts) = [.name n.text] := by
  rcases h with h | h
  · obtain ⟨A, _, rfl, hA, -⟩ := map_symbol_eq_category_cons.1 h
    obtain ⟨l, us, rfl⟩ := symbol_eq_category_iff.1 hA
    rfl
  · obtain rfl := List.map_eq_nil_iff.1 h
    rfl

theorem AreArguments.symbols (hargs : AreArguments ts) :
    ∀ s ∈ ts.map symbol, isTypeSymbol s = true := by
  rcases hargs with h | h <;> simp [h, isTypeSymbol, isTypeCategory]

/-- The arguments of a reference become a list of types. -/
theorem AreArguments.parts (hargs : AreArguments ts) (h : ∀ t ∈ ts, t.WellFormed)
    (hparts : partsOf ts = .ok (own, span)) :
    ∃ args, (own = [] ∧ args = [] ∨ own = [.types args]) ∧
      ∀ names, (∀ q ∈ own, q.isResolvable names = true) ↔ allResolvable names args = true := by
  rcases hargs with hargs | hnil
  · obtain ⟨A, _, rfl, hA, hnil⟩ := map_symbol_eq_category_cons.1 hargs
    obtain rfl := List.map_eq_nil_iff.1 hnil
    have hfits := (h A List.mem_cons_self).fits (partsOf_singleton.1 hparts)
    rw [hA] at hfits
    obtain ⟨q, rfl, hq, -⟩ := hfits
    obtain ⟨args, rfl⟩ : ∃ args, q = .types args := by
      cases q <;> first | contradiction | exact ⟨_, rfl⟩
    exact ⟨args, .inr rfl, by simp [Part.isResolvable]⟩
  · obtain rfl := List.map_eq_nil_iff.1 hnil
    cases hparts
    exact ⟨[], .inl ⟨rfl, rfl⟩, by simp [allResolvable]⟩

/-- A reference is resolvable if what it mentions is visible and its arguments are resolvable. -/
theorem isResolvable_typeReference_iff {s : Span} {binders : List Name}
    (hfits : fitsTypes ⟨.typeReference, ts.map symbol⟩ = true) (h : ∀ t ∈ ts, t.WellFormed)
    (hown : partsOf ts = .ok (own, span)) (hp : assemble .typeReference s own = .ok p) :
    p.isResolvable (names ++ binders) = true ↔
      (∀ w ∈ mentioned .typeReference ts, Mention.Passes names ⟨w, binders, false⟩) ∧
        ∀ q ∈ own, q.isResolvable (names ++ binders) = true := by
  obtain ⟨ty, hty, rfl⟩ := built_eq_ok_iff.1 hp
  rw [show (Part.type ty).isResolvable _ = ty.isResolvable (names ++ binders) from rfl]
  rcases typeReference_children hfits with
    ⟨n, rest, rfl, hn, hargs⟩ | ⟨m, d, n, rest, rfl, hm, hd, hn, hargs⟩
  · obtain ⟨restParts, s', hr, rfl, -⟩ := partsOf_leaf_cons_eq_ok.1 hown
    obtain ⟨args, hrest, hseen⟩ :=
      hargs.parts (fun t ht => h t (List.mem_cons_of_mem _ ht)) hr
    simp only [hn, Terminal.isContent, if_true] at hty ⊢
    have heq : ty = .reference s none n.text args := by
      rcases hrest with ⟨rfl, rfl⟩ | rfl <;> (cases hty; rfl)
    rw [heq, mentioned_typeReference_name hargs]
    simp [TypeNode.isResolvable, Mention.Passes, Mention.isVisible, Part.isResolvable, ← hseen]
  · -- A type of a module is never visible.
    obtain ⟨_, _, hr₁, rfl, -⟩ := partsOf_leaf_cons_eq_ok.1 hown
    obtain ⟨_, _, hr₂, rfl, -⟩ := partsOf_leaf_cons_eq_ok.1 hr₁
    obtain ⟨restParts, s', hr, rfl, -⟩ := partsOf_leaf_cons_eq_ok.1 hr₂
    obtain ⟨args, hrest, -⟩ := hargs.parts (fun t ht => h t (List.mem_cons_of_mem _
      (List.mem_cons_of_mem _ (List.mem_cons_of_mem _ ht)))) hr
    simp only [hm, hd, hn, Terminal.isContent, if_true] at hty
    have heq : ty = .reference s (some m.text) n.text args := by
      rcases hrest with ⟨rfl, rfl⟩ | rfl <;> (cases hty; rfl)
    rw [heq]
    simp [mentioned, TypeNode.isResolvable, Mention.Passes, Mention.isVisible]

theorem typeReference_symbols (hfits : fitsTypes ⟨.typeReference, ts.map symbol⟩ = true) :
    ∀ s ∈ ts.map symbol, isTypeSymbol s = true := by
  rcases typeReference_children hfits with
    ⟨n, rest, rfl, -, hargs⟩ | ⟨m, d, n, rest, rfl, -, -, -, hargs⟩
  all_goals
    intro s hs
    simp only [List.map_cons, List.mem_cons, symbol] at hs
    grind [isTypeSymbol, hargs.symbols]

/-! ## The scope check of a type -/

section

variable {c : Category} {s : Span} {binders : List Name}

/-- A function type is resolvable if what stands below its generic parameters is, where their names
are bound. -/
theorem isResolvable_functionType_iff (hc : isTypeCategory c = true)
    (hfits : fitsTypes ⟨.functionType, ts.map symbol⟩ = true) (h : ∀ t ∈ ts, t.WellFormed)
    (hown : partsOf ts = .ok (own, span)) (hp : assemble .functionType s own = .ok p)
    (hbelow : ∀ t ∈ ts, isTypeSymbol t.symbol = true → ∀ ps s, t.parts = .ok (ps, s) →
      ∀ binders, (∀ q ∈ ps, q.isResolvable (names ++ binders) = true) ↔
        ∀ m ∈ t.mentions binders false, m.Passes names) :
    p.isResolvable (names ++ binders) = true ↔
      ∀ m ∈ (node c .functionType ts).mentions binders false, m.Passes names := by
  obtain ⟨ty, hty, rfl⟩ := built_eq_ok_iff.1 hp
  obtain ⟨hbound, hnone⟩ := boundNames_functionType h hfits hown
  rw [mentions_of_isTypeCategory hc, if_neg (by decide),
    show (Part.type ty).isResolvable _ = ty.isResolvable (names ++ binders) from rfl,
    functionType?_isResolvable hty hbound hnone, List.append_assoc]
  simp only [mentioned, List.map_nil, List.nil_append]
  refine forall_mentionsOf_iff (fun t ht ps s' hps => ?_) hown
  rcases functionType_children hfits ht with hG | htype
  · obtain ⟨l, us, rfl⟩ := symbol_eq_category_iff.1 hG
    obtain ⟨gs, rfl, -⟩ := parts_genericParameters (h _ ht) hps
    exact iff_of_true (by simp [Part.isResolvable]) (passes_genericParameters hG)
  · exact hbelow t ht htype ps s' hps _

theorem isResolvable_nilType_iff (hc : isTypeCategory c = true)
    (hfits : fitsTypes ⟨.nilType, ts.map symbol⟩ = true) (hp : assemble .nilType s own = .ok p) :
    p.isResolvable (names ++ binders) = true ↔
      ∀ m ∈ (node c .nilType ts).mentions binders false, m.Passes names := by
  obtain ⟨k, _, rfl, _, hnil⟩ := map_symbol_eq_token_cons.1 (of_decide_eq_true hfits)
  obtain rfl := List.map_eq_nil_iff.1 hnil
  cases hp
  rw [mentions_of_isTypeCategory hc]
  simp [mentioned, mentions, mentionsOf, Mention.Passes, Mention.isVisible, Part.isResolvable,
    TypeNode.isResolvable, allResolvable]

theorem isResolvable_genericPack_iff (hc : isTypeCategory c = true)
    (hfits : fitsTypes ⟨.genericPack, ts.map symbol⟩ = true)
    (hown : partsOf ts = .ok (own, span)) (hp : assemble .genericPack s own = .ok p) :
    p.isResolvable (names ++ binders) = true ↔
      ∀ m ∈ (node c .genericPack ts).mentions binders false, m.Passes names := by
  obtain ⟨n, _, rfl, hn, hrest⟩ := map_symbol_eq_token_cons.1 (of_decide_eq_true hfits)
  obtain ⟨d, _, rfl, hd, hnil⟩ := map_symbol_eq_token_cons.1 hrest
  obtain rfl := List.map_eq_nil_iff.1 hnil
  obtain ⟨_, _, hown', rfl, -⟩ := partsOf_leaf_cons_eq_ok.1 hown
  obtain ⟨_, _, hown'', rfl, -⟩ := partsOf_leaf_cons_eq_ok.1 hown'
  cases hown''
  simp only [hn, hd, Terminal.isContent, if_true] at hp
  cases hp
  rw [mentions_of_isTypeCategory hc]
  simp [mentioned, mentions, mentionsOf, Mention.Passes, Mention.isVisible, Part.isResolvable,
    TypeNode.isResolvable]

/-- The type of an expression is never resolvable. -/
theorem isResolvable_typeofType_iff (hc : isTypeCategory c = true)
    (hp : assemble .typeofType s own = .ok p) :
    p.isResolvable (names ++ binders) = true ↔
      ∀ m ∈ (node c .typeofType ts).mentions binders false, m.Passes names := by
  cases assemble_eq_ok_iff.1 hp with
  | typeofType =>
    rw [mentions_of_isTypeCategory hc]
    simp [mentioned, Mention.Passes, Mention.isVisible, Part.isResolvable, TypeNode.isResolvable]
  | plain kind => cases kind
  | composite kind => cases kind
  | types list => simp at list

end

/-- A type is resolvable if every mention in its tree is visible that does not stand in the generic
parameters of a function type. -/
theorem isResolvable_iff {t : Tree} (h : t.WellFormed) (ht : isTypeSymbol t.symbol = true)
    {ps : List Part} (hparts : t.parts = .ok (ps, span)) (names binders : List Name) :
    (∀ q ∈ ps, q.isResolvable (names ++ binders) = true) ↔
      ∀ m ∈ t.mentions binders false, m.Passes names := by
  induction h generalizing ps span binders with
  | leaf tok =>
    cases hparts
    simp only [mentions, List.not_mem_nil, false_implies, implies_true, iff_true]
    intro q hq
    split at hq
    · rw [List.mem_singleton.1 hq]
      rfl
    · contradiction
  | @node c l ts hproduction hchildren ih =>
    have hfits := fitsTypes_of_mem ht hproduction
    obtain ⟨own, hown, hcontribute⟩ := parts_node_eq_ok.1 hparts
    have hall (binders : List Name) (hsymbols : ∀ s ∈ ts.map symbol, isTypeSymbol s = true) :
        (∀ q ∈ own, q.isResolvable (names ++ binders) = true) ↔
          ∀ m ∈ mentionsOf binders false ts, m.Passes names :=
      forall_mentionsOf_iff (fun t ht ps s hps =>
        ih t ht (hsymbols _ (List.mem_map_of_mem ht)) hps binders) hown
    by_cases hspliced : l = .spliced
    · subst hspliced
      rw [contribute_spliced] at hcontribute
      cases hcontribute
      rw [mentions_spliced ht (.inl rfl)]
      exact hall binders (List.all_eq_true.1 hfits)
    obtain ⟨s, p, rfl, hp, rfl⟩ : ∃ s p, span = some s ∧ assemble l s own = .ok p ∧ ps = [p] := by
      rcases contribute_eq_ok hspliced hcontribute with hsome | ⟨rfl, -, -⟩
      · exact hsome
      · exact absurd hfits (by simp [fitsTypes, isTransparent])
    simp only [List.mem_singleton, forall_eq]
    by_cases htransparent : isTransparent l = true
    · obtain ⟨hsymbols, hkinds⟩ := fits_of_transparent htransparent hfits
      rw [mentions_spliced ht (.inr htransparent), ← hall binders hsymbols]
      refine isResolvable_of_transparent htransparent hp fun hl q hq => ?_
      obtain ⟨t, ht', qs, s', hqs, hq'⟩ := mem_of_partsOf hown hq
      exact hkinds hl _ (List.mem_map_of_mem ht') _ ((hchildren t ht').fits hqs |>.kind_mem q hq')
    cases l <;> first | exact absurd rfl hspliced | exact absurd rfl htransparent | skip
    case functionType =>
      exact isResolvable_functionType_iff ht hfits hchildren hown hp
        fun t ht' htype ps s' hps binders => ih t ht' htype hps binders
    case typeReference =>
      rw [isResolvable_typeReference_iff hfits hchildren hown hp,
        hall binders (typeReference_symbols hfits), mentions_of_isTypeCategory ht,
        if_neg (by decide), show boundNames .typeReference ts = [] from rfl, List.append_nil]
      simp only [List.mem_append, List.mem_map, or_imp, forall_and, forall_exists_index, and_imp,
        forall_apply_eq_imp_iff₂]
    case nilType => exact isResolvable_nilType_iff ht hfits hp
    case genericPack => exact isResolvable_genericPack_iff ht hfits hown hp
    case typeofType => exact isResolvable_typeofType_iff ht hp
    all_goals exact absurd hfits (by simp [fitsTypes, isTransparent])

end Luau.Tree

end TypedLinks
