import TypedLinks.Proofs.Syntax.Shape
import TypedLinks.Proofs.Syntax.Unplaced

/-!
# Building without places

Whether the syntax of a tree can be built does not depend on the places of its tokens, and neither
does what is built, apart from places. So both are the same for a tree that is read again somewhere
else.
-/

namespace TypedLinks.Luau

/-! ## Parts -/

namespace Part

/-- A part without its places. -/
def unplaced : Part → Part
  | token t => token t.unplaced
  | block b => block b.unplaced
  | statement s => statement s.unplaced
  | returned r => returned r.unplaced
  | binding name => binding name
  | bindings names => bindings names
  | expression e => expression e.unplaced
  | expressions es => expressions (es.map Expression.unplaced)
  | arguments es style => arguments (es.map Expression.unplaced) style
  | type t => type t.unplaced
  | types ts => types (ts.map TypeNode.unplaced)
  | generic g => generic g.unplaced
  | generics gs => generics (gs.map GenericParameter.unplaced)

variable {p : Part}

theorem unplaced_eq_token {t : Token} :
    p.unplaced = (token t).unplaced ↔ ∃ u, p = token u ∧ u.unplaced = t.unplaced := by
  cases p <;> simp [unplaced]

theorem unplaced_eq_bindings {names : List Name} :
    p.unplaced = (bindings names).unplaced ↔ p = bindings names := by
  cases p <;> simp [unplaced]

theorem unplaced_eq_expression {e : Expression} :
    p.unplaced = (expression e).unplaced ↔ ∃ f, p = expression f ∧ f.unplaced = e.unplaced := by
  cases p <;> simp [unplaced]

theorem unplaced_eq_expressions {es : List Expression} :
    p.unplaced = (expressions es).unplaced ↔
      ∃ fs, p = expressions fs ∧ fs.map Expression.unplaced = es.map Expression.unplaced := by
  cases p <;> simp [unplaced]

theorem unplaced_eq_arguments {es : List Expression} {style : ArgumentStyle} :
    p.unplaced = (arguments es style).unplaced ↔
      ∃ fs, p = arguments fs style ∧ fs.map Expression.unplaced = es.map Expression.unplaced := by
  cases p <;> simp [unplaced]
  grind

theorem unplaced_eq_type {t : TypeNode} :
    p.unplaced = (type t).unplaced ↔ ∃ u, p = type u ∧ u.unplaced = t.unplaced := by
  cases p <;> simp [unplaced]

theorem unplaced_eq_types {ts : List TypeNode} :
    p.unplaced = (types ts).unplaced ↔
      ∃ us, p = types us ∧ us.map TypeNode.unplaced = ts.map TypeNode.unplaced := by
  cases p <;> simp [unplaced]

theorem unplaced_eq_generics {gs : List GenericParameter} :
    p.unplaced = (generics gs).unplaced ↔
      ∃ hs, p = generics hs ∧
        hs.map GenericParameter.unplaced = gs.map GenericParameter.unplaced := by
  cases p <;> simp [unplaced]

theorem statement?_unplaced (p : Part) :
    p.unplaced.statement? = p.statement?.map Statement.unplaced := by
  cases p <;> rfl

theorem returned?_unplaced (p : Part) :
    p.unplaced.returned? = p.returned?.map Return.unplaced := by
  cases p <;> rfl

theorem binding?_unplaced (p : Part) : p.unplaced.binding? = p.binding?.map id := by
  cases p <;> rfl

theorem expression?_unplaced (p : Part) :
    p.unplaced.expression? = p.expression?.map Expression.unplaced := by
  cases p <;> rfl

theorem type?_unplaced (p : Part) : p.unplaced.type? = p.type?.map TypeNode.unplaced := by
  cases p <;> rfl

theorem generic?_unplaced (p : Part) :
    p.unplaced.generic? = p.generic?.map GenericParameter.unplaced := by
  cases p <;> rfl

section Select

variable {α : Type} {f : Part → Option α} {g : α → α} {ps qs : List Part}

theorem filterMap_congr (hf : ∀ p, f p.unplaced = (f p).map g)
    (h : ps.map unplaced = qs.map unplaced) : (ps.filterMap f).map g = (qs.filterMap f).map g := by
  have hmap (l : List Part) : (l.filterMap f).map g = (l.map unplaced).filterMap f := by
    rw [List.map_filterMap, List.filterMap_map]
    exact List.filterMap_congr fun p _ => (hf p).symm
  rw [hmap, hmap, h]

theorem findSome?_congr (hf : ∀ p, f p.unplaced = (f p).map g)
    (h : ps.map unplaced = qs.map unplaced) :
    (ps.findSome? f).map g = (qs.findSome? f).map g := by
  have hmap (l : List Part) : (l.findSome? f).map g = (l.map unplaced).findSome? f := by
    induction l with
    | nil => rfl
    | cons p l ih =>
      rw [List.map_cons, List.findSome?_cons, List.findSome?_cons, hf]
      cases f p with
      | none => exact ih
      | some a => rfl
  rw [hmap, hmap, h]

end Select

end Part

/-! ## Single constructs -/

section Building

variable {s : Span} {own own' : List Part} {p : Part}

open TypedLinks.Luau.Part

theorem declared_congr {f : Bool → TypeDeclaration}
    (h : typeDeclaration?.declared s own = some f) (s' : Span)
    (hown : own'.map unplaced = own.map unplaced) :
    ∃ f', typeDeclaration?.declared s' own' = some f' ∧
      ∀ exported, (f' exported).unplaced = (f exported).unplaced := by
  unfold typeDeclaration?.declared at h
  split at h <;> first | contradiction | cases h
  · simp only [List.map_cons, List.map_nil, List.map_eq_cons_iff, unplaced_eq_token,
      unplaced_eq_generics, unplaced_eq_type, List.map_eq_nil_iff] at hown
    obtain ⟨_, _, rfl, ⟨_, rfl, -⟩, _, _, rfl, ⟨_, rfl, hname⟩, _, _, rfl, ⟨_, rfl, hgenerics⟩,
      _, _, rfl, ⟨_, rfl, hbody⟩, rfl⟩ := hown
    refine ⟨_, rfl, fun exported => ?_⟩
    simp [TypeDeclaration.unplaced, (Token.unplaced_eq_iff.1 hname).2, hgenerics, hbody]
  · simp only [List.map_cons, List.map_nil, List.map_eq_cons_iff, unplaced_eq_token,
      unplaced_eq_type, List.map_eq_nil_iff] at hown
    obtain ⟨_, _, rfl, ⟨_, rfl, -⟩, _, _, rfl, ⟨_, rfl, hname⟩, _, _, rfl, ⟨_, rfl, hbody⟩,
      rfl⟩ := hown
    refine ⟨_, rfl, fun exported => ?_⟩
    simp [TypeDeclaration.unplaced, (Token.unplaced_eq_iff.1 hname).2, hbody]

theorem typeDeclaration?_congr {d : TypeDeclaration} (h : typeDeclaration? s own = some d)
    (s' : Span) (hown : own'.map unplaced = own.map unplaced) :
    ∃ d', typeDeclaration? s' own' = some d' ∧ d'.unplaced = d.unplaced := by
  unfold typeDeclaration? at h
  split at h
  · rename_i text span parts
    obtain ⟨f, hf, rfl⟩ := Option.map_eq_some_iff.1 h
    rw [List.map_cons, List.map_eq_cons_iff] at hown
    obtain ⟨p', ps', rfl, hp', hps'⟩ := hown
    obtain ⟨⟨_, text', span'⟩, rfl, hu⟩ := unplaced_eq_token.1 hp'
    obtain rfl := (Token.unplaced_eq_iff.1 hu).1
    obtain ⟨f', hf', hsame⟩ := declared_congr hf s' hps'
    exact ⟨f' true, by rw [typeDeclaration?, hf']; rfl, hsame true⟩
  · rename_i hnot
    obtain ⟨f, hf, rfl⟩ := Option.map_eq_some_iff.1 h
    obtain ⟨f', hf', hsame⟩ := declared_congr hf s' hown
    refine ⟨f' false, ?_, hsame false⟩
    unfold typeDeclaration?
    split
    · rename_i text span parts
      rw [List.map_cons] at hown
      obtain ⟨p, ps, rfl, hp, -⟩ := List.map_eq_cons_iff.1 hown.symm
      obtain ⟨⟨_, text', span'⟩, rfl, hu⟩ := unplaced_eq_token.1 hp
      obtain rfl := (Token.unplaced_eq_iff.1 hu).1
      exact absurd rfl (hnot _ _ _)
    · rw [hf']
      rfl

theorem typeReference?_congr {t : TypeNode} (h : typeReference? s own = some t) (s' : Span)
    (hown : own'.map unplaced = own.map unplaced) :
    ∃ t', typeReference? s' own' = some t' ∧ t'.unplaced = t.unplaced := by
  unfold typeReference? at h
  split at h <;> first | contradiction | cases h
  all_goals
    simp only [List.map_cons, List.map_nil, List.map_eq_cons_iff, unplaced_eq_token,
      unplaced_eq_types, List.map_eq_nil_iff] at hown
  · obtain ⟨_, _, rfl, ⟨_, rfl, hname⟩, rfl⟩ := hown
    exact ⟨_, rfl, by simp [TypeNode.unplaced, (Token.unplaced_eq_iff.1 hname).2]⟩
  · obtain ⟨_, _, rfl, ⟨_, rfl, hname⟩, _, _, rfl, ⟨_, rfl, harguments⟩, rfl⟩ := hown
    exact ⟨_, rfl, by simp [TypeNode.unplaced, TypeNode.unplacedOf_eq_map,
      (Token.unplaced_eq_iff.1 hname).2, harguments]⟩
  · obtain ⟨_, _, rfl, ⟨_, rfl, hmodule⟩, _, _, rfl, ⟨_, rfl, hname⟩, rfl⟩ := hown
    exact ⟨_, rfl, by simp [TypeNode.unplaced, (Token.unplaced_eq_iff.1 hmodule).2,
      (Token.unplaced_eq_iff.1 hname).2]⟩
  · obtain ⟨_, _, rfl, ⟨_, rfl, hmodule⟩, _, _, rfl, ⟨_, rfl, hname⟩, _, _, rfl,
      ⟨_, rfl, harguments⟩, rfl⟩ := hown
    exact ⟨_, rfl, by simp [TypeNode.unplaced, TypeNode.unplacedOf_eq_map,
      (Token.unplaced_eq_iff.1 hmodule).2, (Token.unplaced_eq_iff.1 hname).2, harguments]⟩

theorem names_of_unplaced {gs hs : List GenericParameter}
    (h : hs.map GenericParameter.unplaced = gs.map GenericParameter.unplaced) :
    hs.map (·.name) = gs.map (·.name) := by
  have hnames := congrArg (List.map GenericParameter.name) h
  simpa [List.map_map, Function.comp_def, GenericParameter.unplaced] using hnames

theorem functionType?_congr {t : TypeNode} (h : functionType? s own = some t) (s' : Span)
    (hown : own'.map unplaced = own.map unplaced) :
    ∃ t', functionType? s' own' = some t' ∧ t'.unplaced = t.unplaced := by
  unfold functionType? at h
  split at h <;> first | contradiction | cases h
  all_goals
    simp only [List.map_cons, List.map_nil, List.map_eq_cons_iff, unplaced_eq_generics,
      unplaced_eq_type, unplaced_eq_types, List.map_eq_nil_iff] at hown
  · obtain ⟨_, _, rfl, ⟨_, rfl, hreturns⟩, rfl⟩ := hown
    exact ⟨_, rfl, by simp [TypeNode.unplaced, hreturns]⟩
  · obtain ⟨_, _, rfl, ⟨_, rfl, hparameters⟩, _, _, rfl, ⟨_, rfl, hreturns⟩, rfl⟩ := hown
    exact ⟨_, rfl, by simp [TypeNode.unplaced, TypeNode.unplacedOf_eq_map, hparameters, hreturns]⟩
  · obtain ⟨_, _, rfl, ⟨_, rfl, hgenerics⟩, _, _, rfl, ⟨_, rfl, hreturns⟩, rfl⟩ := hown
    exact ⟨_, rfl, by simp [TypeNode.unplaced, names_of_unplaced hgenerics, hreturns]⟩
  · obtain ⟨_, _, rfl, ⟨_, rfl, hgenerics⟩, _, _, rfl, ⟨_, rfl, hparameters⟩, _, _, rfl,
      ⟨_, rfl, hreturns⟩, rfl⟩ := hown
    exact ⟨_, rfl, by simp [TypeNode.unplaced, TypeNode.unplacedOf_eq_map,
      names_of_unplaced hgenerics, hparameters, hreturns]⟩

theorem genericParameter?_congr {variadic : Bool} {g : GenericParameter}
    (h : genericParameter? s variadic own = some g) (s' : Span)
    (hown : own'.map unplaced = own.map unplaced) :
    ∃ g', genericParameter? s' variadic own' = some g' ∧ g'.unplaced = g.unplaced := by
  unfold genericParameter? at h
  split at h <;> first | contradiction | cases h
  all_goals
    simp only [List.map_cons, List.map_nil, List.map_eq_cons_iff, unplaced_eq_token,
      unplaced_eq_type, List.map_eq_nil_iff] at hown
  · obtain ⟨_, _, rfl, ⟨_, rfl, hname⟩, rfl⟩ := hown
    exact ⟨_, rfl, by simp [GenericParameter.unplaced, (Token.unplaced_eq_iff.1 hname).2]⟩
  · obtain ⟨_, _, rfl, ⟨_, rfl, hname⟩, _, _, rfl, ⟨_, rfl, hdefault⟩, rfl⟩ := hown
    exact ⟨_, rfl, by
      simp [GenericParameter.unplaced, (Token.unplaced_eq_iff.1 hname).2, hdefault]⟩

theorem methodCall?_congr {e : Expression} (h : methodCall? s own = some e) (s' : Span)
    (hown : own'.map unplaced = own.map unplaced) :
    ∃ f, methodCall? s' own' = some f ∧ f.unplaced = e.unplaced := by
  unfold methodCall? at h
  split at h <;> first | contradiction | cases h
  all_goals
    simp only [List.map_cons, List.map_nil, List.map_eq_cons_iff, unplaced_eq_token,
      unplaced_eq_expression, unplaced_eq_arguments, unplaced_eq_types, List.map_eq_nil_iff] at hown
  · obtain ⟨_, _, rfl, ⟨_, rfl, hreceiver⟩, _, _, rfl, ⟨_, rfl, hmethod⟩, _, _, rfl,
      ⟨_, rfl, hes⟩, rfl⟩ := hown
    exact ⟨_, rfl, by simp [Expression.unplaced, Expression.unplacedOf_eq_map, hreceiver, hes,
      (Token.unplaced_eq_iff.1 hmethod).2]⟩
  · obtain ⟨_, _, rfl, ⟨_, rfl, hreceiver⟩, _, _, rfl, ⟨_, rfl, hmethod⟩, _, _, rfl,
      ⟨_, rfl, -⟩, _, _, rfl, ⟨_, rfl, hes⟩, rfl⟩ := hown
    exact ⟨_, rfl, by simp [Expression.unplaced, Expression.unplacedOf_eq_map, hreceiver, hes,
      (Token.unplaced_eq_iff.1 hmethod).2]⟩

/-! ## Constructs of one or two parts -/

section Shapes

variable {a b : Part}

theorem map_unplaced_eq_singleton_iff :
    own.map unplaced = [a].map unplaced ↔ ∃ x, own = [x] ∧ x.unplaced = a.unplaced := by
  simp [List.map_eq_cons_iff, eq_comm]

theorem map_unplaced_eq_pair_iff :
    own.map unplaced = [a, b].map unplaced ↔
      ∃ x y, own = [x, y] ∧ x.unplaced = a.unplaced ∧ y.unplaced = b.unplaced := by
  simp only [List.map_cons, List.map_nil, List.map_eq_cons_iff, List.map_eq_nil_iff]
  constructor
  · rintro ⟨x, _, rfl, hx, y, _, rfl, hy, rfl⟩
    exact ⟨x, y, rfl, hx, hy⟩
  · rintro ⟨x, y, rfl, hx, hy⟩
    exact ⟨x, [y], rfl, hx, y, [], rfl, hy, rfl⟩

theorem eq_singleton_token {t : Token} (h : own.map unplaced = [token t].map unplaced) :
    ∃ u, own = [token u] ∧ u.text = t.text := by
  obtain ⟨_, rfl, hx⟩ := map_unplaced_eq_singleton_iff.1 h
  obtain ⟨u, rfl, hu⟩ := unplaced_eq_token.1 hx
  exact ⟨u, rfl, (Token.unplaced_eq_iff.1 hu).2⟩

theorem eq_singleton_expression {e : Expression}
    (h : own.map unplaced = [expression e].map unplaced) :
    ∃ f, own = [expression f] ∧ f.unplaced = e.unplaced := by
  obtain ⟨_, rfl, hx⟩ := map_unplaced_eq_singleton_iff.1 h
  obtain ⟨f, rfl, hf⟩ := unplaced_eq_expression.1 hx
  exact ⟨f, rfl, hf⟩

theorem eq_singleton_expressions {es : List Expression}
    (h : own.map unplaced = [expressions es].map unplaced) :
    ∃ fs, own = [expressions fs] ∧ fs.map Expression.unplaced = es.map Expression.unplaced := by
  obtain ⟨_, rfl, hx⟩ := map_unplaced_eq_singleton_iff.1 h
  obtain ⟨fs, rfl, hfs⟩ := unplaced_eq_expressions.1 hx
  exact ⟨fs, rfl, hfs⟩

end Shapes

/-- A construct builds a part out of others, places apart. -/
def Rebuilds (s : Span) (l : Construct) (own : List Part) (p : Part) : Prop :=
  ∃ p', Assembles s l own p' ∧ p'.unplaced = p.unplaced

namespace Rebuilds

variable {s' : Span} {t : Token} {e base key : Expression} {es : List Expression}
  {style : ArgumentStyle} {names : List Name} {value : Text} {ts : List TypeNode}

/-! ### Names -/

theorem binding (h : own'.map unplaced = (token t :: own).map unplaced) :
    Rebuilds s .binding own' (.binding t.text) := by
  obtain ⟨_, _, rfl, hx, -⟩ := List.map_eq_cons_iff.1 h
  obtain ⟨u, rfl, hu⟩ := unplaced_eq_token.1 hx
  exact ⟨_, .binding, congrArg Part.binding (Token.unplaced_eq_iff.1 hu).2⟩

theorem localNames (h : own.map unplaced = [bindings names].map unplaced) :
    Rebuilds s .localAssignment own (.statement (.localAssignment s' names [])) := by
  obtain ⟨_, rfl, hx⟩ := map_unplaced_eq_singleton_iff.1 h
  obtain rfl := unplaced_eq_bindings.1 hx
  exact ⟨_, .localNames, rfl⟩

theorem string (decoded : StringLiteral.decode t.text = .ok value)
    (h : own.map unplaced = [token t].map unplaced) :
    Rebuilds s .string own (.expression (.string s' value)) := by
  obtain ⟨u, rfl, hu⟩ := eq_singleton_token h
  rw [← hu] at decoded
  exact ⟨_, .string decoded, rfl⟩

theorem name (h : own.map unplaced = [token t].map unplaced) :
    Rebuilds s .name own (.expression (.name s' t.text)) := by
  obtain ⟨u, rfl, hu⟩ := eq_singleton_token h
  exact ⟨_, .name, by simp [unplaced, Expression.unplaced, hu]⟩

theorem genericPack (h : own.map unplaced = [token t].map unplaced) :
    Rebuilds s .genericPack own (.type (.packReference s' t.text)) := by
  obtain ⟨u, rfl, hu⟩ := eq_singleton_token h
  exact ⟨_, .genericPack, by simp [unplaced, TypeNode.unplaced, hu]⟩

/-! ### An expression -/

theorem callStatement (isCall : e.isCall) (h : own.map unplaced = [expression e].map unplaced) :
    Rebuilds s .callStatement own (.statement (.plain s')) := by
  obtain ⟨f, rfl, hf⟩ := eq_singleton_expression h
  rw [← Expression.isCall_unplaced, ← hf, Expression.isCall_unplaced] at isCall
  exact ⟨_, .callStatement isCall, rfl⟩

theorem parenthesized (h : own.map unplaced = [expression e].map unplaced) :
    Rebuilds s .parenthesized own (.expression (.parenthesized s' e)) := by
  obtain ⟨f, rfl, hf⟩ := eq_singleton_expression h
  exact ⟨_, .parenthesized, by simp [unplaced, Expression.unplaced, hf]⟩

theorem tableArguments (h : own.map unplaced = [expression e].map unplaced) :
    Rebuilds s .tableArguments own (.arguments [e] .table) := by
  obtain ⟨f, rfl, hf⟩ := eq_singleton_expression h
  exact ⟨_, .tableArguments, by simp [unplaced, hf]⟩

theorem stringArguments (h : own.map unplaced = [expression e].map unplaced) :
    Rebuilds s .stringArguments own (.arguments [e] .string) := by
  obtain ⟨f, rfl, hf⟩ := eq_singleton_expression h
  exact ⟨_, .stringArguments, by simp [unplaced, hf]⟩

theorem typeofType (h : own.map unplaced = [expression e].map unplaced) :
    Rebuilds s .typeofType own (.type (.typeof s' e)) := by
  obtain ⟨f, rfl, hf⟩ := eq_singleton_expression h
  exact ⟨_, .typeofType, by simp [unplaced, TypeNode.unplaced, hf]⟩

theorem fieldIndex (h : own.map unplaced = [expression base, token t].map unplaced) :
    Rebuilds s .fieldIndex own (.expression (.field s' base t.text)) := by
  obtain ⟨_, _, rfl, hx, hy⟩ := map_unplaced_eq_pair_iff.1 h
  obtain ⟨f, rfl, hf⟩ := unplaced_eq_expression.1 hx
  obtain ⟨u, rfl, hu⟩ := unplaced_eq_token.1 hy
  exact ⟨_, .fieldIndex, by
    simp [unplaced, Expression.unplaced, hf, (Token.unplaced_eq_iff.1 hu).2]⟩

theorem keyIndex (h : own.map unplaced = [expression base, expression key].map unplaced) :
    Rebuilds s .keyIndex own (.expression (.key s' base key)) := by
  obtain ⟨_, _, rfl, hx, hy⟩ := map_unplaced_eq_pair_iff.1 h
  obtain ⟨f, rfl, hf⟩ := unplaced_eq_expression.1 hx
  obtain ⟨k, rfl, hk⟩ := unplaced_eq_expression.1 hy
  exact ⟨_, .keyIndex, by simp [unplaced, Expression.unplaced, hf, hk]⟩

theorem call (h : own.map unplaced = [expression base, arguments es style].map unplaced) :
    Rebuilds s .call own (.expression (.call s' base es style)) := by
  obtain ⟨_, _, rfl, hx, hy⟩ := map_unplaced_eq_pair_iff.1 h
  obtain ⟨f, rfl, hf⟩ := unplaced_eq_expression.1 hx
  obtain ⟨fs, rfl, hfs⟩ := unplaced_eq_arguments.1 hy
  exact ⟨_, .call, by simp [unplaced, Expression.unplaced, Expression.unplacedOf_eq_map, hf, hfs]⟩

/-! ### A list -/

theorem localAssignment (h : own.map unplaced = [bindings names, expressions es].map unplaced) :
    Rebuilds s .localAssignment own (.statement (.localAssignment s' names es)) := by
  obtain ⟨_, _, rfl, hx, hy⟩ := map_unplaced_eq_pair_iff.1 h
  obtain rfl := unplaced_eq_bindings.1 hx
  obtain ⟨fs, rfl, hfs⟩ := unplaced_eq_expressions.1 hy
  exact ⟨_, .localAssignment, by
    rw [unplaced, unplaced, Statement.unplaced, Statement.unplaced, hfs]⟩

theorem returnExpressions (h : own.map unplaced = [expressions es].map unplaced) :
    Rebuilds s .returnStatement own (.returned ⟨s', es⟩) := by
  obtain ⟨fs, rfl, hfs⟩ := eq_singleton_expressions h
  exact ⟨_, .returnExpressions, by rw [unplaced, unplaced, Return.unplaced, Return.unplaced, hfs]⟩

theorem parenthesizedArguments (h : own.map unplaced = [expressions es].map unplaced) :
    Rebuilds s .parenthesizedArguments own (.arguments es .parentheses) := by
  obtain ⟨fs, rfl, hfs⟩ := eq_singleton_expressions h
  exact ⟨_, .parenthesizedArguments, by rw [unplaced, unplaced, hfs]⟩

theorem parenthesizedType (h : own.map unplaced = [types ts].map unplaced) :
    Rebuilds s .parenthesizedType own (.type (Luau.parenthesizedType s' ts)) := by
  obtain ⟨_, rfl, hx⟩ := map_unplaced_eq_singleton_iff.1 h
  obtain ⟨us, rfl, hus⟩ := unplaced_eq_types.1 hx
  exact ⟨_, .parenthesizedType, by
    rw [unplaced, unplaced, unplaced_parenthesizedType, unplaced_parenthesizedType, hus]⟩

/-! ### All parts of a kind -/

theorem block (h : own'.map unplaced = own.map unplaced) :
    Rebuilds s .block own' (.block
      ⟨own.filterMap Part.statement?, own.findSome? Part.returned?⟩) := by
  have hstatements := filterMap_congr statement?_unplaced h
  have hreturned := findSome?_congr returned?_unplaced h
  exact ⟨_, .block, by simp [unplaced, Block.unplaced, hstatements, hreturned]⟩

theorem bindingList (h : own'.map unplaced = own.map unplaced) :
    Rebuilds s .bindingList own' (.bindings (own.filterMap Part.binding?)) := by
  have hbindings := filterMap_congr binding?_unplaced h
  rw [List.map_id, List.map_id] at hbindings
  exact ⟨_, .bindingList, congrArg bindings hbindings⟩

theorem composite {l : Construct} {k : CompositeType} (kind : l.composite? = some k)
    (h : own'.map unplaced = own.map unplaced) :
    Rebuilds s l own' (.type (.composite s' k (own.filterMap Part.type?))) := by
  have htypes := filterMap_congr type?_unplaced h
  exact ⟨_, .composite kind, by
    simp [unplaced, TypeNode.unplaced, TypeNode.unplacedOf_eq_map, htypes]⟩

end Rebuilds

/-- What a construct builds is the same apart from places if its parts are. -/
theorem assembles_congr {l : Construct} (h : Assembles s l own p) (s' : Span)
    (hown : own'.map unplaced = own.map unplaced) : Rebuilds s' l own' p := by
  cases h with
  | block => exact .block hown
  | statement => exact ⟨_, .statement, rfl⟩
  | callStatement isCall => exact .callStatement isCall hown
  | localNames => exact .localNames hown
  | localAssignment => exact .localAssignment hown
  | typeDeclaration built =>
    obtain ⟨d, hd, hsame⟩ := typeDeclaration?_congr built s' hown
    exact ⟨_, .typeDeclaration hd, congrArg (statement ∘ .typeDeclaration) hsame⟩
  | typeFunction => exact ⟨_, .typeFunction, rfl⟩
  | returnNothing =>
    obtain rfl := List.map_eq_nil_iff.1 hown
    exact ⟨_, .returnNothing, rfl⟩
  | returnExpressions => exact .returnExpressions hown
  | bindingList => exact .bindingList hown
  | binding => exact .binding hown
  | expressionList =>
    exact ⟨_, .expressionList, congrArg expressions (filterMap_congr expression?_unplaced hown)⟩
  | plain kind => exact ⟨_, .plain kind, rfl⟩
  | string decoded => exact .string decoded hown
  | name => exact .name hown
  | parenthesized => exact .parenthesized hown
  | fieldIndex => exact .fieldIndex hown
  | keyIndex => exact .keyIndex hown
  | call => exact .call hown
  | methodCall built =>
    obtain ⟨e, he, hsame⟩ := methodCall?_congr built s' hown
    exact ⟨_, .methodCall he, congrArg expression hsame⟩
  | noArguments =>
    obtain rfl := List.map_eq_nil_iff.1 hown
    exact ⟨_, .noArguments, rfl⟩
  | parenthesizedArguments => exact .parenthesizedArguments hown
  | tableArguments => exact .tableArguments hown
  | stringArguments => exact .stringArguments hown
  | types list => exact ⟨_, .types list, congrArg types (filterMap_congr type?_unplaced hown)⟩
  | composite kind => exact .composite kind hown
  | nilType => exact ⟨_, .nilType, rfl⟩
  | typeofType => exact .typeofType hown
  | emptyPack =>
    obtain rfl := List.map_eq_nil_iff.1 hown
    exact ⟨_, .emptyPack, rfl⟩
  | parenthesizedType => exact .parenthesizedType hown
  | functionType built =>
    obtain ⟨t, ht, hsame⟩ := functionType?_congr built s' hown
    exact ⟨_, .functionType ht, congrArg type hsame⟩
  | typeReference built =>
    obtain ⟨t, ht, hsame⟩ := typeReference?_congr built s' hown
    exact ⟨_, .typeReference ht, congrArg type hsame⟩
  | genericPack => exact .genericPack hown
  | genericParameterList =>
    exact ⟨_, .genericParameterList, congrArg generics (filterMap_congr generic?_unplaced hown)⟩
  | genericParameter built =>
    obtain ⟨g, hg, hsame⟩ := genericParameter?_congr built s' hown
    exact ⟨_, .genericParameter hg, congrArg generic hsame⟩
  | genericPackParameter built =>
    obtain ⟨g, hg, hsame⟩ := genericParameter?_congr built s' hown
    exact ⟨_, .genericPackParameter hg, congrArg generic hsame⟩

/-- What a node contributes is the same apart from places if the parts of its children are. -/
theorem contribute_congr {l : Construct} {span span' : Option Span} {ps : List Part}
    (h : contribute l own span = .ok ps) (hown : own'.map unplaced = own.map unplaced)
    (hspan : span'.isSome = span.isSome) :
    ∃ ps', contribute l own' span' = .ok ps' ∧ ps'.map unplaced = ps.map unplaced := by
  by_cases hl : l = .spliced
  · subst hl
    rw [Tree.contribute_spliced] at h
    cases h
    exact ⟨own', Tree.contribute_spliced _ _, hown⟩
  rcases Tree.contribute_eq_ok hl h with ⟨s, p, rfl, hp, rfl⟩ | ⟨rfl, rfl, rfl⟩
  · obtain ⟨s', rfl⟩ := Option.isSome_iff_exists.1 hspan
    obtain ⟨p', hp', hsame⟩ := assembles_congr (assemble_eq_ok_iff.1 hp) s' hown
    exact ⟨[p'], Tree.contribute_of_assemble hl (assemble_eq_ok_iff.2 hp'),
      by rw [List.map_singleton, List.map_singleton, hsame]⟩
  · obtain rfl : span' = none := by simpa using hspan
    exact ⟨_, rfl, rfl⟩

end Building

/-! ## Trees -/

namespace Tree

theorem isSome_joinSpans (a b : Option Span) :
    (joinSpans a b).isSome = (a.isSome || b.isSome) := by
  cases a <;> cases b <;> rfl

mutual

/-- Whether a tree has parts, and what they are apart from places, does not depend on the places of
its tokens. -/
theorem parts_congr {t u : Tree} (h : u.unplaced = t.unplaced) {ps : List Part}
    {span : Option Span} (hparts : t.parts = .ok (ps, span)) :
    ∃ ps' span', u.parts = .ok (ps', span') ∧ ps'.map Part.unplaced = ps.map Part.unplaced ∧
      span'.isSome = span.isSome := by
  match t, u with
  | leaf t, leaf u =>
    cases hparts
    rw [unplaced, unplaced, leaf.injEq] at h
    refine ⟨_, _, rfl, ?_, rfl⟩
    rw [(Token.unplaced_eq_iff.1 h).1]
    split
    · simp [Part.unplaced, h]
    · rfl
  | node c l ts, node c' l' us =>
    rw [unplaced, unplaced, node.injEq] at h
    obtain ⟨rfl, rfl, hchildren⟩ := h
    obtain ⟨own, hown, hcontribute⟩ := parts_node_eq_ok.1 hparts
    obtain ⟨own', span', hown', hsame, hspan⟩ := partsOf_congr hchildren hown
    obtain ⟨ps', hps', hsame'⟩ := contribute_congr hcontribute hsame hspan
    exact ⟨ps', span', parts_node_eq_ok.2 ⟨own', hown', hps'⟩, hsame', hspan⟩
  | leaf _, node .. => cases h
  | node .., leaf _ => cases h

theorem partsOf_congr {ts us : List Tree} (h : unplacedOf us = unplacedOf ts) {ps : List Part}
    {span : Option Span} (hparts : partsOf ts = .ok (ps, span)) :
    ∃ ps' span', partsOf us = .ok (ps', span') ∧ ps'.map Part.unplaced = ps.map Part.unplaced ∧
      span'.isSome = span.isSome := by
  match ts, us with
  | [], [] =>
    cases hparts
    exact ⟨[], none, rfl, rfl, rfl⟩
  | t :: ts, u :: us =>
    rw [unplacedOf, unplacedOf, List.cons.injEq] at h
    obtain ⟨first, s, others, s', hfirst, hothers, rfl, rfl⟩ := partsOf_cons_eq_ok.1 hparts
    obtain ⟨first', r, hfirst', hsame, hr⟩ := parts_congr h.1 hfirst
    obtain ⟨others', r', hothers', hsame', hr'⟩ := partsOf_congr h.2 hothers
    refine ⟨first' ++ others', joinSpans r r',
      partsOf_cons_eq_ok.2 ⟨first', r, others', r', hfirst', hothers', rfl, rfl⟩, ?_, ?_⟩
    · rw [List.map_append, List.map_append, hsame, hsame']
    · rw [isSome_joinSpans, isSome_joinSpans, hr, hr']
  | [], _ :: _ => cases h
  | _ :: _, [] => cases h

end

theorem parts_expression_congr {t u : Tree} (h : u.unplaced = t.unplaced) {e : Expression}
    {span : Option Span} (hparts : t.parts = .ok ([.expression e], span)) :
    ∃ f span', u.parts = .ok ([.expression f], span') ∧ f.unplaced = e.unplaced := by
  obtain ⟨ps, span', hps, hsame, -⟩ := parts_congr h hparts
  obtain ⟨f, rfl, hf⟩ := eq_singleton_expression hsame
  exact ⟨f, span', hps, hf⟩

end Tree

end TypedLinks.Luau
