import TypedLinks.Forwarding.Declaration
import TypedLinks.Luau.Parse
import TypedLinks.Proofs.Syntax.Members

/-!
# Trees of type declarations

Where the exported type declarations of a source stand in its parse tree, and what its generic
parameters and their defaults are there.
-/

namespace TypedLinks.Luau

open Grammar

namespace Tree

variable {t : Tree} {ts : List Tree} {ps : List Part} {span : Option Span}

/-! ## Productions -/

theorem productions_genericParameter : productions .genericParameter =
    [⟨.genericParameter, [.token .name, .token .equals, .category .typeOrPack]⟩,
      ⟨.genericParameter, [.token .name]⟩,
      ⟨.genericPackParameter,
        [.token .name, .token .ellipsis, .token .equals, .category .typeOrPack]⟩,
      ⟨.genericPackParameter, [.token .name, .token .ellipsis]⟩] := rfl

theorem productions_genericParameterList : productions .genericParameterList =
    [⟨.genericParameterList, [.category .genericParameter, .category .furtherGenericParameters]⟩,
      ⟨.genericParameterList, [.category .genericParameter]⟩] := rfl

theorem productions_genericParameters : productions .genericParameters =
    [⟨.spliced, [.token .less, .category .genericParameterList, .token .greater]⟩] := rfl

theorem productions_typeDeclaration :
    (productions .statement).filter (·.construct = .typeDeclaration) =
    [⟨.typeDeclaration, [.token .kwExport, .token .kwType, .token .name,
        .category .genericParameters, .token .equals, .category .type]⟩,
      ⟨.typeDeclaration, [.token .kwExport, .token .kwType, .token .name, .token .equals,
        .category .type]⟩,
      ⟨.typeDeclaration, [.token .kwType, .token .name, .category .genericParameters,
        .token .equals, .category .type]⟩,
      ⟨.typeDeclaration, [.token .kwType, .token .name, .token .equals, .category .type]⟩,
      ⟨.typeDeclaration, [.token .kwExport, .token .kwType, .token .name, .token .less,
        .category .genericParameterList, .token .greaterEqual, .category .type]⟩,
      ⟨.typeDeclaration, [.token .kwType, .token .name, .token .less,
        .category .genericParameterList, .token .greaterEqual, .category .type]⟩] := rfl

/-- A generic parameter is a name, with three dots behind it if it is a pack, and then perhaps a
default. -/
theorem genericParameter_cases {l : Construct}
    (h : WellFormed (node .genericParameter l ts)) :
    ∃ n dots default, ts = leaf n :: (dots ++ default) ∧ n.terminal = .name ∧
      (l = .genericParameter ∧ dots = [] ∨
        l = .genericPackParameter ∧ ∃ d, dots = [leaf d] ∧ d.terminal = .ellipsis) ∧
      (default = [] ∨ ∃ e D, default = [leaf e, D] ∧ e.terminal = .equals ∧
        D.symbol = .category .typeOrPack) := by
  have hp := h.production
  rw [productions_genericParameter] at hp
  simp only [List.mem_cons, List.not_mem_nil, or_false, Production.mk.injEq,
    map_symbol_eq_token_cons, map_symbol_eq_category_cons, List.map_eq_nil_iff] at hp
  rcases hp with ⟨rfl, n, _, rfl, hn, e, _, rfl, he, D, _, rfl, hD, rfl⟩ | ⟨rfl, n, _, rfl, hn, rfl⟩ |
    ⟨rfl, n, _, rfl, hn, d, _, rfl, hd, e, _, rfl, he, D, _, rfl, hD, rfl⟩ |
    ⟨rfl, n, _, rfl, hn, d, _, rfl, hd, rfl⟩
  · exact ⟨n, [], [leaf e, D], rfl, hn, .inl ⟨rfl, rfl⟩, .inr ⟨e, D, rfl, he, hD⟩⟩
  · exact ⟨n, [], [], rfl, hn, .inl ⟨rfl, rfl⟩, .inl rfl⟩
  · exact ⟨n, [leaf d], [leaf e, D], rfl, hn, .inr ⟨rfl, d, rfl, hd⟩, .inr ⟨e, D, rfl, he, hD⟩⟩
  · exact ⟨n, [leaf d], [], rfl, hn, .inr ⟨rfl, d, rfl, hd⟩, .inl rfl⟩

/-- A type declaration is the words that start it, a name, perhaps generic parameters, and the type
behind an equals sign; that may be drawn together with the bracket before it. -/
theorem typeDeclaration_cases (h : WellFormed (node .statement .typeDeclaration ts)) :
    ∃ mark kw n list e body, ts = mark ++ leaf kw :: leaf n :: (list ++ [leaf e, body]) ∧
      (mark = [] ∨ ∃ x, mark = [leaf x] ∧ x.terminal = .kwExport) ∧
      kw.terminal = .kwType ∧ n.terminal = .name ∧ body.symbol = .category .type ∧
      (list = [] ∧ e.terminal = .equals ∨
        (∃ G, list = [G] ∧ G.symbol = .category .genericParameters ∧ e.terminal = .equals) ∨
        ∃ b L, list = [leaf b, L] ∧ b.terminal = .less ∧
          L.symbol = .category .genericParameterList ∧ e.terminal = .greaterEqual) := by
  have hp := List.mem_filter (p := (·.construct = .typeDeclaration)).2 ⟨h.production, by simp⟩
  rw [productions_typeDeclaration] at hp
  simp only [List.mem_cons, List.not_mem_nil, or_false, Production.mk.injEq,
    map_symbol_eq_token_cons, map_symbol_eq_category_cons, List.map_eq_nil_iff, true_and] at hp
  rcases hp with
    ⟨x, _, rfl, hx, k, _, rfl, hk, n, _, rfl, hn, G, _, rfl, hG, e, _, rfl, he, B, _, rfl, hB, rfl⟩ |
    ⟨x, _, rfl, hx, k, _, rfl, hk, n, _, rfl, hn, e, _, rfl, he, B, _, rfl, hB, rfl⟩ |
    ⟨k, _, rfl, hk, n, _, rfl, hn, G, _, rfl, hG, e, _, rfl, he, B, _, rfl, hB, rfl⟩ |
    ⟨k, _, rfl, hk, n, _, rfl, hn, e, _, rfl, he, B, _, rfl, hB, rfl⟩ |
    ⟨x, _, rfl, hx, k, _, rfl, hk, n, _, rfl, hn, b, _, rfl, hb, L, _, rfl, hL, e, _, rfl, he, B, _,
      rfl, hB, rfl⟩ |
    ⟨k, _, rfl, hk, n, _, rfl, hn, b, _, rfl, hb, L, _, rfl, hL, e, _, rfl, he, B, _, rfl, hB, rfl⟩
  · exact ⟨[leaf x], k, n, [G], e, B, rfl, .inr ⟨x, rfl, hx⟩, hk, hn, hB,
      .inr (.inl ⟨G, rfl, hG, he⟩)⟩
  · exact ⟨[leaf x], k, n, [], e, B, rfl, .inr ⟨x, rfl, hx⟩, hk, hn, hB, .inl ⟨rfl, he⟩⟩
  · exact ⟨[], k, n, [G], e, B, rfl, .inl rfl, hk, hn, hB, .inr (.inl ⟨G, rfl, hG, he⟩)⟩
  · exact ⟨[], k, n, [], e, B, rfl, .inl rfl, hk, hn, hB, .inl ⟨rfl, he⟩⟩
  · exact ⟨[leaf x], k, n, [leaf b, L], e, B, rfl, .inr ⟨x, rfl, hx⟩, hk, hn, hB,
      .inr (.inr ⟨b, L, rfl, hb, hL, he⟩)⟩
  · exact ⟨[], k, n, [leaf b, L], e, B, rfl, .inl rfl, hk, hn, hB,
      .inr (.inr ⟨b, L, rfl, hb, hL, he⟩)⟩

/-! ## Generic parameters -/

/-- The trees of the generic parameters of a list without its brackets. -/
def listedParameters : Tree → List Tree
  | node .genericParameterList _ ts =>
    (membersOf .furtherGenericParameters ts).filter (·.symbol = .category .genericParameter)
  | _ => []

/-- The trees of the generic parameters of a list. -/
def parameters : Tree → List Tree
  | node .genericParameters _ ts => ts.flatMap listedParameters
  | t => t.listedParameters

/-- The name that the tree of a generic parameter declares. -/
def parameterName : Tree → Name
  | node _ _ (leaf n :: _) => n.text
  | _ => []

/-- The tree of the default of a generic parameter. -/
def default? : Tree → Option Tree
  | node _ _ ts => ts.find? (·.symbol = .category .typeOrPack)
  | leaf _ => none

/-- A tree is that of a generic parameter. -/
structure IsParameter (P : Tree) (g : GenericParameter) : Prop where
  wellFormed : P.WellFormed
  symbol : P.symbol = .category .genericParameter
  parts : ∃ s, P.parts = .ok ([.generic g], s)

theorem generic?_eq_some {p : Part} {g : GenericParameter} (h : p.generic? = some g) :
    p = .generic g := by
  cases p <;> first | contradiction | (cases h; rfl)

/-- A list of generic parameters contributes those that its trees declare. -/
theorem parts_genericParameterList {l : Construct}
    (h : WellFormed (node .genericParameterList l ts))
    (hparts : (node .genericParameterList l ts).parts = .ok (ps, span)) :
    ∃ gs, ps = [.generics gs] ∧
      List.Forall₂ IsParameter (node .genericParameterList l ts).listedParameters gs := by
  have hp := h.production
  rw [productions_genericParameterList] at hp
  obtain ⟨hl, hsymbols⟩ : l = .genericParameterList ∧
      ∀ s ∈ ts.map symbol, s = .category .genericParameter ∨
        s = .category .furtherGenericParameters := by
    simp only [List.mem_cons, List.not_mem_nil, or_false, Production.mk.injEq] at hp
    rcases hp with ⟨rfl, hbody⟩ | ⟨rfl, hbody⟩ <;> simp [hbody]
  subst hl
  obtain ⟨own, hown, hcontribute⟩ := parts_node_eq_ok.1 hparts
  rcases contribute_eq_ok (by decide) hcontribute with ⟨s, p, rfl, hassemble, rfl⟩ | ⟨hl, -, -⟩
  · cases hassemble
    refine ⟨_, rfl, ?_⟩
    have hmembers := forall₂_members (c := .genericParameter)
      (d := .furtherGenericParameters) (k := .generic) (f := Part.generic?) rfl
      (by rintro (_ | _) <;> simp [Part.kind, Part.generic?])
      (by rintro (_ | _) <;> simp [Part.kind, Part.generic?]) (by decide)
      (fun s hs => (hsymbols s hs).symm.imp_right .inl) (by decide) h.children hown
    refine hmembers.imp fun P g hP => ?_
    obtain ⟨hwell, hsymbol, p, s, hparts, hg, -⟩ := hP
    rw [generic?_eq_some hg] at hparts
    exact ⟨hwell, hsymbol, s, hparts⟩
  · contradiction

theorem parts_genericParameters {l : Construct} (h : WellFormed (node .genericParameters l ts))
    (hparts : (node .genericParameters l ts).parts = .ok (ps, span)) :
    ∃ gs, ps = [.generics gs] ∧
      List.Forall₂ IsParameter (node .genericParameters l ts).parameters gs := by
  have hp := h.production
  rw [productions_genericParameters] at hp
  simp only [List.mem_cons, List.not_mem_nil, or_false, Production.mk.injEq,
    map_symbol_eq_token_cons, map_symbol_eq_category_cons, List.map_eq_nil_iff] at hp
  obtain ⟨rfl, b, _, rfl, hb, L, _, rfl, hL, d, _, rfl, hd, rfl⟩ := hp
  obtain ⟨l, ts, rfl⟩ := symbol_eq_category_iff.1 hL
  obtain ⟨own, hown, hcontribute⟩ := parts_node_eq_ok.1 hparts
  rw [contribute_spliced] at hcontribute
  cases hcontribute
  rw [partsOf_leaf_cons_eq_ok] at hown
  obtain ⟨_, _, hown, rfl, -⟩ := hown
  obtain ⟨first, _, _, _, hlist, hlast, rfl, -⟩ := partsOf_cons_eq_ok.1 hown
  rw [partsOf_leaf_cons_eq_ok] at hlast
  obtain ⟨_, _, hnil, rfl, -⟩ := hlast
  cases hnil
  obtain ⟨gs, rfl, hgs⟩ := parts_genericParameterList (h.children _ (by simp)) hlist
  refine ⟨gs, by simp [hb, hd, Terminal.isContent], ?_⟩
  simpa [parameters, Tree.listedParameters] using hgs

/-- A tree of a category of types contributes one type, that covers the tree. -/
theorem WellFormed.parts_of_one_type {c : Category} (h : t.WellFormed) (hc : t.symbol = .category c)
    (hshape : c.shape = .one .type) (hparts : t.parts = .ok (ps, span)) :
    ∃ ty, ps = [.type ty] ∧ t.parts = .ok ([.type ty], some ty.span) := by
  have hfits := h.fits hparts
  rw [hc, symbolShape, hshape] at hfits
  obtain ⟨p, rfl, hk, hcovers⟩ := hfits
  obtain ⟨ty, rfl⟩ : ∃ ty, p = .type ty := by
    cases p <;> first | contradiction | exact ⟨_, rfl⟩
  exact ⟨ty, rfl, by rw [hparts, hcovers _ rfl]⟩

/-- The default of a generic parameter contributes its type alone. -/
theorem parts_default {default : List Tree}
    (h : default = [] ∨ ∃ e D, default = [leaf e, D] ∧ e.terminal = .equals ∧
      D.symbol = .category .typeOrPack)
    (hwell : ∀ t ∈ default, t.WellFormed) (hparts : partsOf default = .ok (ps, span)) :
    default = [] ∧ ps = [] ∨
      ∃ e D ty, default = [leaf e, D] ∧ e.terminal = .equals ∧ D.symbol = .category .typeOrPack ∧
        D.WellFormed ∧ ps = [.type ty] ∧ D.parts = .ok ([.type ty], some ty.span) := by
  rcases h with rfl | ⟨e, D, rfl, he, hD⟩
  · cases hparts
    exact .inl ⟨rfl, rfl⟩
  · have hwellD : D.WellFormed := hwell D (by simp)
    obtain ⟨_, _, hparts', rfl, -⟩ := partsOf_leaf_cons_eq_ok.1 hparts
    rw [partsOf_singleton] at hparts'
    obtain ⟨ty, rfl, hty⟩ := hwellD.parts_of_one_type hD rfl hparts'
    exact .inr ⟨e, D, ty, rfl, he, hD, hwellD, by simp [he, Terminal.isContent], hty⟩

namespace IsParameter

variable {P : Tree} {g : GenericParameter}

/-- A generic parameter as its tree says. -/
theorem cases (h : IsParameter P g) :
    ∃ l n dots default, P = node .genericParameter l (leaf n :: (dots ++ default)) ∧
      n.terminal = .name ∧ g.name = n.text ∧
      (l = .genericParameter ∧ dots = [] ∧ g.variadic = false ∨
        l = .genericPackParameter ∧ (∃ d, dots = [leaf d] ∧ d.terminal = .ellipsis) ∧
          g.variadic = true) ∧
      (default = [] ∧ g.default = none ∨
        ∃ e D ty, default = [leaf e, D] ∧ e.terminal = .equals ∧
          D.symbol = .category .typeOrPack ∧ D.WellFormed ∧ g.default = some ty ∧
          D.parts = .ok ([.type ty], some ty.span)) := by
  obtain ⟨hwell, hsymbol, s, hparts⟩ := h
  obtain ⟨l, ts, rfl⟩ := symbol_eq_category_iff.1 hsymbol
  obtain ⟨n, dots, default, rfl, hn, hdots, hdefault⟩ := genericParameter_cases hwell
  obtain ⟨own, hown, hcontribute⟩ := parts_node_eq_ok.1 hparts
  rw [partsOf_leaf_cons_eq_ok] at hown
  obtain ⟨others, s', hothers, rfl, rfl⟩ := hown
  obtain ⟨dotParts, s₁, defaultParts, s₂, hdotParts, hdefaultParts, rfl, rfl⟩ :=
    partsOf_append_eq_ok.1 hothers
  obtain rfl : dotParts = [] := by
    rcases hdots with ⟨-, rfl⟩ | ⟨-, d, rfl, hd⟩
    · cases hdotParts
      rfl
    · obtain ⟨_, _, hnil, rfl, -⟩ := partsOf_leaf_cons_eq_ok.1 hdotParts
      cases hnil
      simp [hd, Terminal.isContent]
  have htype := parts_default hdefault
    (fun t ht => hwell.children t (by simp [ht])) hdefaultParts
  have hcontent : (if n.terminal.isContent then [Part.token n] else []) = [.token n] := by
    rw [hn]
    rfl
  rw [hcontent, List.nil_append] at hcontribute
  have hne : l ≠ .spliced := by
    rcases hdots with ⟨rfl, -⟩ | ⟨rfl, -⟩ <;> decide
  rcases contribute_eq_ok hne hcontribute with ⟨s, p, -, hassemble, hp⟩ | ⟨-, -, hp⟩
  · obtain rfl := (List.singleton_inj.1 hp)
    have hbuilt : ∃ variadic, genericParameter? s variadic (.token n :: defaultParts) = some g ∧
        (l = .genericParameter ∧ dots = [] ∧ variadic = false ∨
          l = .genericPackParameter ∧ (∃ d, dots = [leaf d] ∧ d.terminal = .ellipsis) ∧
            variadic = true) := by
      rcases hdots with ⟨rfl, rfl⟩ | ⟨rfl, hdots⟩
      · obtain ⟨g', hg', heq⟩ := built_eq_ok_iff.1 hassemble
        cases heq
        exact ⟨false, hg', .inl ⟨rfl, rfl, rfl⟩⟩
      · obtain ⟨g', hg', heq⟩ := built_eq_ok_iff.1 hassemble
        cases heq
        exact ⟨true, hg', .inr ⟨rfl, hdots, rfl⟩⟩
    obtain ⟨variadic, hg, hvariadic⟩ := hbuilt
    refine ⟨l, n, dots, default, rfl, hn, ?_⟩
    rcases htype with ⟨rfl, rfl⟩ | ⟨e, D, ty, rfl, he, hD, hwellD, rfl, hty⟩ <;> cases hg
    · exact ⟨rfl, hvariadic, .inl ⟨rfl, rfl⟩⟩
    · exact ⟨rfl, hvariadic, .inr ⟨e, D, ty, rfl, he, hD, hwellD, rfl, hty⟩⟩
  · cases hp

theorem name (h : IsParameter P g) : g.name = P.parameterName := by
  obtain ⟨_, _, _, _, rfl, -, hname, -⟩ := h.cases
  exact hname

end IsParameter

theorem names_of_parameters {Ps : List Tree} {gs : List GenericParameter}
    (h : List.Forall₂ IsParameter Ps gs) : gs.map (·.name) = Ps.map parameterName := by
  induction h with
  | nil => rfl
  | cons hP _ ih => rw [List.map_cons, List.map_cons, hP.name, ih]

/-! ## Declarations -/

/-- A tree is that of a type declaration. -/
structure IsDeclaration (T : Tree) (d : TypeDeclaration) : Prop where
  wellFormed : T.WellFormed
  node : ∃ ts, T = .node .statement .typeDeclaration ts
  parts : ∃ s, T.parts = .ok ([.statement (.typeDeclaration d)], s)

/-- The trees of the generic parameters of a declaration. -/
def declaredParameters : Tree → List Tree
  | node _ _ ts => ts.flatMap parameters
  | leaf _ => []

/-- The word in front of an exported declaration contributes itself. -/
theorem parts_mark {mark : List Tree}
    (h : mark = [] ∨ ∃ x, mark = [leaf x] ∧ x.terminal = .kwExport)
    (hparts : partsOf mark = .ok (ps, span)) :
    mark = [] ∧ ps = [] ∨ ∃ x, mark = [leaf x] ∧ x.terminal = .kwExport ∧ ps = [.token x] := by
  rcases h with rfl | ⟨x, rfl, hx⟩
  · cases hparts
    exact .inl ⟨rfl, rfl⟩
  · obtain ⟨_, _, hnil, rfl, -⟩ := partsOf_leaf_cons_eq_ok.1 hparts
    cases hnil
    exact .inr ⟨x, rfl, hx, by simp [hx, Terminal.isContent]⟩

/-- What stands between the name of a declaration and the sign `e` contributes its generic
parameters. -/
theorem parts_declaredList {list : List Tree} {e : Token}
    (h : list = [] ∧ e.terminal = .equals ∨
      (∃ G, list = [G] ∧ G.symbol = .category .genericParameters ∧ e.terminal = .equals) ∨
      ∃ b L, list = [leaf b, L] ∧ b.terminal = .less ∧
        L.symbol = .category .genericParameterList ∧ e.terminal = .greaterEqual)
    (hwell : ∀ t ∈ list, t.WellFormed) (hparts : partsOf list = .ok (ps, span)) :
    (list = [] ∧ e.terminal = .equals ∧ ps = []) ∨
      ∃ gs, ps = [.generics gs] ∧ List.Forall₂ IsParameter (list.flatMap parameters) gs ∧
        ((∃ G, list = [G] ∧ G.symbol = .category .genericParameters ∧ e.terminal = .equals) ∨
          ∃ b L, list = [leaf b, L] ∧ b.terminal = .less ∧
            L.symbol = .category .genericParameterList ∧ e.terminal = .greaterEqual) := by
  rcases h with ⟨rfl, he⟩ | ⟨G, rfl, hG, he⟩ | ⟨b, L, rfl, hb, hL, he⟩
  · cases hparts
    exact .inl ⟨rfl, he, rfl⟩
  · obtain ⟨l, us, rfl⟩ := symbol_eq_category_iff.1 hG
    rw [partsOf_singleton] at hparts
    obtain ⟨gs, rfl, hgs⟩ := parts_genericParameters (hwell _ (by simp)) hparts
    exact .inr ⟨gs, rfl, by simpa using hgs, .inl ⟨_, rfl, hG, he⟩⟩
  · obtain ⟨l, us, rfl⟩ := symbol_eq_category_iff.1 hL
    obtain ⟨_, _, hL', rfl, -⟩ := partsOf_leaf_cons_eq_ok.1 hparts
    rw [partsOf_singleton] at hL'
    obtain ⟨gs, rfl, hgs⟩ := parts_genericParameterList (hwell _ (by simp)) hL'
    refine .inr ⟨gs, by simp [hb, Terminal.isContent], ?_, .inr ⟨_, _, rfl, hb, hL, he⟩⟩
    simpa [parameters, Tree.listedParameters] using hgs

namespace IsDeclaration

variable {T : Tree} {d : TypeDeclaration}

/-- A type declaration as its tree says. -/
theorem cases (h : IsDeclaration T d) :
    ∃ mark kw n list e body, T = .node .statement .typeDeclaration
        (mark ++ leaf kw :: leaf n :: (list ++ [leaf e, body])) ∧
      (mark = [] ∧ d.exported = false ∨
        (∃ x, mark = [leaf x] ∧ x.terminal = .kwExport) ∧ d.exported = true) ∧
      kw.terminal = .kwType ∧ n.terminal = .name ∧ d.name = n.text ∧ body.symbol = .category .type ∧
      body.parts = .ok ([.type d.body], some d.body.span) ∧
      (list = [] ∧ e.terminal = .equals ∧ d.generics = none ∨
        ∃ gs, d.generics = some gs ∧ List.Forall₂ IsParameter (list.flatMap parameters) gs ∧
          ((∃ G, list = [G] ∧ G.symbol = .category .genericParameters ∧ e.terminal = .equals) ∨
            ∃ b L, list = [leaf b, L] ∧ b.terminal = .less ∧
              L.symbol = .category .genericParameterList ∧ e.terminal = .greaterEqual)) := by
  obtain ⟨hwell, ⟨ts, rfl⟩, s, hparts⟩ := h
  obtain ⟨mark, kw, n, list, e, body, rfl, hmark, hkw, hn, hbody, hlist⟩ :=
    typeDeclaration_cases hwell
  obtain ⟨own, hown, hcontribute⟩ := parts_node_eq_ok.1 hparts
  obtain ⟨markParts, s₁, _, s₂, hmarkParts, hword, rfl, rfl⟩ := partsOf_append_eq_ok.1 hown
  obtain ⟨_, s₃, hname, rfl, rfl⟩ := partsOf_leaf_cons_eq_ok.1 hword
  obtain ⟨_, s₄, hrest, rfl, rfl⟩ := partsOf_leaf_cons_eq_ok.1 hname
  obtain ⟨listParts, s₅, _, s₆, hlistParts, hsign, rfl, rfl⟩ := partsOf_append_eq_ok.1 hrest
  obtain ⟨_, s₇, hbodyParts, rfl, rfl⟩ := partsOf_leaf_cons_eq_ok.1 hsign
  rw [partsOf_singleton] at hbodyParts
  have hwellBody : body.WellFormed := hwell.children body (by simp)
  obtain ⟨b, rfl, hb⟩ := hwellBody.parts_of_one_type hbody rfl hbodyParts
  have hmark' := parts_mark hmark hmarkParts
  have hlist' := parts_declaredList hlist (fun t ht => hwell.children t (by simp [ht])) hlistParts
  have hsign : (if e.terminal.isContent then [Part.token e] else []) = [] := by
    rcases hlist' with ⟨-, he, -⟩ | ⟨_, -, -, ⟨_, -, -, he⟩ | ⟨_, _, -, -, -, he⟩⟩ <;>
      simp [he, Terminal.isContent]
  rw [hsign, show (if kw.terminal.isContent then [Part.token kw] else []) = [.token kw] by
      rw [hkw]; rfl,
    show (if n.terminal.isContent then [Part.token n] else []) = [.token n] by
      rw [hn]; rfl] at hcontribute
  rcases contribute_eq_ok (by decide) hcontribute with ⟨s, p, -, hassemble, hp⟩ | ⟨hl, -, -⟩
  · obtain rfl := List.singleton_inj.1 hp
    obtain ⟨d', hd', heq⟩ := built_eq_ok_iff.1 hassemble
    cases heq
    refine ⟨mark, kw, n, list, e, body, rfl, ?_⟩
    obtain ⟨f, exported, rfl, hexported, hf⟩ : ∃ f exported, d = f exported ∧
        (mark = [] ∧ exported = false ∨
          (∃ x, mark = [leaf x] ∧ x.terminal = .kwExport) ∧ exported = true) ∧
        typeDeclaration?.declared s (.token kw :: .token n :: (listParts ++ [.type b])) = some f := by
      obtain ⟨_, kwText, kwSpan⟩ := kw
      cases hkw
      rcases hmark' with ⟨rfl, rfl⟩ | ⟨x, rfl, hx, rfl⟩
      · obtain ⟨f, hf, rfl⟩ := Option.map_eq_some_iff.1 hd'
        exact ⟨f, false, rfl, .inl ⟨rfl, rfl⟩, hf⟩
      · obtain ⟨_, xText, xSpan⟩ := x
        obtain rfl : _ = Terminal.kwExport := hx
        obtain ⟨f, hf, rfl⟩ := Option.map_eq_some_iff.1 hd'
        exact ⟨f, true, rfl, .inr ⟨⟨_, rfl, rfl⟩, rfl⟩, hf⟩
    rcases hlist' with ⟨rfl, he, rfl⟩ | ⟨gs, rfl, hgs, hshape⟩ <;> cases hf
    · exact ⟨hexported, hkw, hn, rfl, hbody, hb, .inl ⟨rfl, he, rfl⟩⟩
    · exact ⟨hexported, hkw, hn, rfl, hbody, hb, .inr ⟨gs, rfl, hgs, hshape⟩⟩
  · contradiction

end IsDeclaration

/-! ## Exports -/

/-- Whether a tree is that of an exported type declaration. -/
def isExport : Tree → Bool
  | node .statement .typeDeclaration (leaf t :: _) => t.terminal = .kwExport
  | _ => false

/-- The trees of the type declarations that a source exports. -/
def exportTrees : Tree → List Tree
  | node .chunk _ [node .block _ ts] => (membersOf .statements ts).filter isExport
  | _ => []

theorem productions_block : productions .block =
    [⟨.block, [.category .statements, .category .lastStatement]⟩,
      ⟨.block, [.category .statements]⟩, ⟨.block, [.category .lastStatement]⟩,
      ⟨.block, []⟩] := rfl

/-- A block is a series of statements and then a last statement, either of which may be missing. -/
theorem block_cases {l : Construct} (h : WellFormed (node .block l ts)) :
    l = .block ∧ ∃ first last, ts = first ++ last ∧
      (first = [] ∨ ∃ S, first = [S] ∧ S.symbol = .category .statements) ∧
      (last = [] ∨ ∃ L, last = [L] ∧ L.symbol = .category .lastStatement) := by
  have hp := h.production
  rw [productions_block] at hp
  simp only [List.mem_cons, List.not_mem_nil, or_false, Production.mk.injEq,
    map_symbol_eq_category_cons, List.map_eq_nil_iff] at hp
  rcases hp with ⟨rfl, S, _, rfl, hS, L, _, rfl, hL, rfl⟩ | ⟨rfl, S, _, rfl, hS, rfl⟩ |
    ⟨rfl, L, _, rfl, hL, rfl⟩ | ⟨rfl, rfl⟩
  · exact ⟨rfl, [S], [L], rfl, .inr ⟨S, rfl, hS⟩, .inr ⟨L, rfl, hL⟩⟩
  · exact ⟨rfl, [S], [], rfl, .inr ⟨S, rfl, hS⟩, .inl rfl⟩
  · exact ⟨rfl, [], [L], rfl, .inl rfl, .inr ⟨L, rfl, hL⟩⟩
  · exact ⟨rfl, [], [], rfl, .inl rfl, .inl rfl⟩

/-- Only a block without children has no extent. -/
theorem block_eq_nil {l : Construct} {own : List Part} (h : WellFormed (node .block l ts))
    (hown : partsOf ts = .ok (own, none)) : ts = [] := by
  have htokens := extentOf_eq_none_iff.1 (span_of_partsOf hown).symm
  cases ts with
  | nil => rfl
  | cons t ts =>
    have hsymbol : t.symbol ≠ .category .block ∧ t.symbol ≠ .category .chunk := by
      have hp := h.production
      rw [productions_block, List.map_cons] at hp
      simp only [List.mem_cons, List.not_mem_nil, or_false, Production.mk.injEq,
        List.cons.injEq, reduceCtorEq, and_false] at hp
      rcases hp with ⟨-, hp, -⟩ | ⟨-, hp, -⟩ | ⟨-, hp, -⟩ <;> simp [hp]
    exact absurd (List.append_eq_nil_iff.1 htokens).1
      ((h.children t List.mem_cons_self).tokens_ne_nil hsymbol.1 hsymbol.2)

/-- A block contributes the statements and the last statement of its children. -/
theorem parts_block_eq_ok_iff {l : Construct} (h : WellFormed (node .block l ts)) :
    (node .block l ts).parts = .ok (ps, span) ↔
      ∃ own, partsOf ts = .ok (own, span) ∧
        ps = [.block ⟨own.filterMap Part.statement?, own.findSome? Part.returned?⟩] := by
  obtain ⟨rfl, -⟩ := block_cases h
  rw [parts_node_eq_ok]
  refine exists_congr fun own => and_congr_right fun hown => ?_
  cases span with
  | some s => exact ⟨fun h => (Except.ok.inj h).symm, fun h => congrArg Except.ok h.symm⟩
  | none =>
    obtain rfl := block_eq_nil h hown
    cases hown
    exact ⟨fun h => (Except.ok.inj h).symm, fun h => congrArg Except.ok h.symm⟩

/-- Only type declarations export a type. -/
theorem exported?_of_assemble {l : Construct} {s : Span} {own : List Part} {st : Statement}
    (hl : l ≠ .typeDeclaration) (h : assemble l s own = .ok (.statement st)) :
    st.exported? = none := by
  rcases statement_of_assemble hl h with rfl | rfl | ⟨names, es, rfl⟩ <;> rfl

theorem productions_lastStatement : productions .lastStatement =
    [⟨.returnStatement, [.token .kwReturn, .category .expressionList, .token .semicolon]⟩,
      ⟨.returnStatement, [.token .kwReturn, .category .expressionList]⟩,
      ⟨.returnStatement, [.token .kwReturn, .token .semicolon]⟩,
      ⟨.returnStatement, [.token .kwReturn]⟩, ⟨.statement, [.token .kwBreak, .token .semicolon]⟩,
      ⟨.statement, [.token .kwBreak]⟩,
      ⟨.spliced, [.category .continueStatement, .token .semicolon]⟩,
      ⟨.spliced, [.category .continueStatement]⟩] := rfl

theorem statement?_eq_some {p : Part} {s : Statement} (h : p.statement? = some s) :
    p = .statement s := by
  cases p <;> first | contradiction | (cases h; rfl)

/-- The last statement of a block exports nothing. -/
theorem exported?_lastStatement (h : t.WellFormed) (ht : t.symbol = .category .lastStatement)
    (hparts : t.parts = .ok (ps, span)) :
    (ps.filterMap Part.statement?).filterMap Statement.exported? = [] := by
  have hbuilt {c : Category} {l : Construct} {us : List Tree} {qs : List Part}
      {span : Option Span} (hl : l ≠ .spliced) (hl' : l ≠ .typeDeclaration)
      (hqs : (node c l us).parts = .ok (qs, span)) :
      (qs.filterMap Part.statement?).filterMap Statement.exported? = [] := by
    obtain ⟨own, -, hcontribute⟩ := parts_node_eq_ok.1 hqs
    rcases contribute_eq_ok hl hcontribute with ⟨s, p, -, hp, rfl⟩ | ⟨-, -, rfl⟩
    · cases hst : p.statement? with
      | none => simp [hst]
      | some st =>
        rw [statement?_eq_some hst] at hp
        simp [hst, exported?_of_assemble hl' hp]
    · rfl
  obtain ⟨l, ts, rfl⟩ := symbol_eq_category_iff.1 ht
  have hp := h.production
  rw [productions_lastStatement] at hp
  have hl : l ≠ .typeDeclaration := by
    rintro rfl
    simp at hp
  by_cases hspliced : l = .spliced
  · subst hspliced
    obtain ⟨own, hown, hcontribute⟩ := parts_node_eq_ok.1 hparts
    rw [contribute_spliced] at hcontribute
    cases hcontribute
    simp only [List.mem_cons, List.not_mem_nil, or_false, Production.mk.injEq, reduceCtorEq,
      false_and, false_or, true_and, map_symbol_eq_token_cons, map_symbol_eq_category_cons,
      List.map_eq_nil_iff] at hp
    have hcontinue {C : Tree} {rest : List Tree} (hC : C.symbol = .category .continueStatement)
        (hts : ts = C :: rest) (hrest : ∀ own s, partsOf rest = .ok (own, s) → own = []) :
        (ps.filterMap Part.statement?).filterMap Statement.exported? = [] := by
      subst hts
      obtain ⟨lC, us, rfl⟩ := symbol_eq_category_iff.1 hC
      obtain ⟨first, s, others, s', hfirst, hothers, rfl, -⟩ := partsOf_cons_eq_ok.1 hown
      obtain rfl := hrest _ _ hothers
      have hpC := (h.children _ List.mem_cons_self).production
      have hchecked : (productions .continueStatement).all (·.construct = .statement) = true := rfl
      have hlC : lC = .statement := of_decide_eq_true (List.all_eq_true.1 hchecked _ hpC)
      rw [List.append_nil]
      exact hbuilt (by rw [hlC]; decide) (by rw [hlC]; decide) hfirst
    rcases hp with ⟨C, _, hts, hC, x, _, rfl, hx, rfl⟩ | ⟨C, _, hts, hC, rfl⟩
    · refine hcontinue hC hts fun own s hs => ?_
      obtain ⟨_, _, hnil, rfl, -⟩ := partsOf_leaf_cons_eq_ok.1 hs
      cases hnil
      simp [hx, Terminal.isContent]
    · refine hcontinue hC hts fun own s hs => ?_
      cases hs
      rfl
  · exact hbuilt hspliced hl hparts

theorem symbol_of_isExport (h : t.isExport = true) : t.symbol = .category .statement := by
  unfold isExport at h
  split at h
  · rfl
  · contradiction

/-- A statement exports a type if its tree is that of an exported declaration. -/
theorem declaration_of_statement {s : Statement} (h : t.WellFormed)
    (ht : t.symbol = .category .statement) (hparts : t.parts = .ok ([.statement s], span)) :
    t.isExport = false ∧ s.exported? = none ∨
      t.isExport = true ∧ ∃ d, s.exported? = some d ∧ IsDeclaration t d := by
  obtain ⟨l, ts, rfl⟩ := symbol_eq_category_iff.1 ht
  obtain ⟨own, -, hcontribute⟩ := parts_node_eq_ok.1 hparts
  have hspliced : l ≠ .spliced := by
    have hchecked : (productions .statement).all (·.construct ≠ .spliced) = true := by decide
    simpa using List.all_eq_true.1 hchecked _ h.production
  rcases contribute_eq_ok hspliced hcontribute with ⟨sp, p, -, hp, heq⟩ | ⟨-, -, heq⟩
  · obtain rfl := List.singleton_inj.1 heq
    by_cases hl : l = .typeDeclaration
    · subst hl
      obtain ⟨d, -, hd⟩ := built_eq_ok_iff.1 hp
      cases hd
      have hdeclaration : IsDeclaration (node .statement .typeDeclaration ts) d :=
        ⟨h, ⟨ts, rfl⟩, span, hparts⟩
      obtain ⟨mark, kw, n, list, e, body, hshape, hmark, hkw, -⟩ := hdeclaration.cases
      cases hshape
      rcases hmark with ⟨rfl, hexported⟩ | ⟨⟨x, rfl, hx⟩, hexported⟩
      · exact .inl ⟨by simp [isExport, hkw], by simp [Statement.exported?, hexported]⟩
      · exact .inr ⟨by simp [isExport, hx], d, by simp [Statement.exported?, hexported],
          hdeclaration⟩
    · refine .inl ⟨?_, exported?_of_assemble hl hp⟩
      unfold isExport
      split
      · rename_i hnode
        cases hnode
        exact absurd rfl hl
      · rfl
  · cases heq

/-- The types that a block exports are those that its trees declare. -/
theorem exports_of_block {l : Construct} {own : List Part} (h : WellFormed (node .block l ts))
    (hown : partsOf ts = .ok (own, span)) :
    List.Forall₂ IsDeclaration ((membersOf .statements ts).filter isExport)
      ((own.filterMap Part.statement?).filterMap Statement.exported?) := by
  obtain ⟨-, first, last, rfl, hfirst, hlast⟩ := block_cases h
  obtain ⟨firstParts, s₁, lastParts, s₂, hfirstParts, hlastParts, rfl, -⟩ :=
    partsOf_append_eq_ok.1 hown
  have hlastTrees : (membersOf .statements last).filter isExport = [] := by
    rcases hlast with rfl | ⟨L, rfl, hL⟩
    · rfl
    · obtain ⟨l, us, rfl⟩ := symbol_eq_category_iff.1 hL
      simp [membersOf, members, isExport]
  have hlastParts' : (lastParts.filterMap Part.statement?).filterMap Statement.exported? = [] := by
    rcases hlast with rfl | ⟨L, rfl, hL⟩
    · cases hlastParts
      rfl
    · exact exported?_lastStatement (h.children L (by simp)) hL (partsOf_singleton.1 hlastParts)
  rw [membersOf_append, List.filter_append, hlastTrees, List.append_nil, List.filterMap_append,
    List.filterMap_append, hlastParts', List.append_nil]
  have hstatements := forall₂_members (c := .statement) (d := .statements) (k := .statement)
    (f := Part.statement?) rfl
    (by rintro (_ | _) <;> simp [Part.kind, Part.statement?])
    (by rintro (_ | _) <;> simp [Part.kind, Part.statement?]) (by decide)
    (by
      rcases hfirst with rfl | ⟨S, rfl, hS⟩
      · simp
      · simp [hS]) (by decide) (fun t ht => h.children t (List.mem_append_left _ ht)) hfirstParts
  have hfilter : (membersOf .statements first).filter isExport =
      ((membersOf .statements first).filter (·.symbol = .category .statement)).filter isExport := by
    rw [List.filter_filter]
    refine List.filter_congr fun t _ => ?_
    cases ht : isExport t with
    | false => rfl
    | true => simp [symbol_of_isExport ht]
  rw [hfilter]
  generalize (membersOf .statements first).filter (·.symbol = .category .statement) = Ts
    at hstatements
  generalize firstParts.filterMap Part.statement? = ss at hstatements
  induction hstatements with
  | nil => exact .nil
  | @cons T s Ts ss hT _ ih =>
    obtain ⟨hwell, hsymbol, p, span, hparts, hs, -⟩ := hT
    obtain rfl := statement?_eq_some hs
    rcases declaration_of_statement hwell hsymbol hparts with
      ⟨hnot, hnone⟩ | ⟨hexport, d, hsome, hd⟩
    · rw [List.filter_cons_of_neg (by simp [hnot]), List.filterMap_cons_none hnone]
      exact ih
    · rw [List.filter_cons_of_pos hexport, List.filterMap_cons_some hsome]
      exact .cons hd ih

end Tree

end TypedLinks.Luau
