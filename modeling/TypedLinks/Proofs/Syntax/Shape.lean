import TypedLinks.Luau.Construction
import TypedLinks.Proofs.Parsing.Derivation

/-!
# What trees contribute

Which kinds of part a well-formed tree contributes follows from the category at its root: one part of
a fixed kind that covers the tree, or any number of parts of some kinds. This is checked production
by production and lifted to all trees.
-/

namespace TypedLinks.Luau

open Grammar

/-! ## Kinds of part -/

/-- The kinds of part. -/
inductive PartKind where
  | token | block | statement | returned | binding | bindings | expression | expressions
  | arguments | type | types | generic | generics
  deriving DecidableEq

/-- Every kind of part. -/
def PartKind.all : List PartKind :=
  [token, block, statement, returned, binding, bindings, expression, expressions, arguments, type,
    types, generic, generics]

namespace Part

/-- The kind of a part. -/
def kind : Part → PartKind
  | token _ => .token
  | block _ => .block
  | statement _ => .statement
  | returned _ => .returned
  | binding _ => .binding
  | bindings _ => .bindings
  | expression _ => .expression
  | expressions _ => .expressions
  | arguments .. => .arguments
  | type _ => .type
  | types _ => .types
  | generic _ => .generic
  | generics _ => .generics

/-- The extent that a part records. -/
def extent? : Part → Option Span
  | token t => some t.span
  | statement s => some s.span
  | returned r => some r.span
  | expression e => some e.span
  | type t => some t.span
  | generic g => some g.span
  | _ => none

/-- Whether a part records no other extent than a given one. -/
def Covers (p : Part) (span : Option Span) : Prop := ∀ s, p.extent? = some s → span = some s

end Part

/-- The kind of part that a construct builds. -/
def Construct.kind? : Construct → Option PartKind
  | spliced => none
  | block => some .block
  | statement | callStatement | localAssignment | typeDeclaration | typeFunction => some .statement
  | returnStatement => some .returned
  | bindingList => some .bindings
  | binding => some .binding
  | expressionList => some .expressions
  | operatorChain | unaryOperation | typeAssertion | literal | string | interpolatedString | table
  | function | ifExpression | name | parenthesized | fieldIndex | keyIndex | instantiation | call
  | methodCall => some .expression
  | parenthesizedArguments | tableArguments | stringArguments => some .arguments
  | typeInstantiation | typeArguments | typeList => some .types
  | unionType | optionalType | nilType | singletonType | typeofType | tableType
  | parenthesizedType | functionType | typeReference | variadicType | genericPack => some .type
  | genericParameterList => some .generics
  | genericParameter | genericPackParameter => some .generic

/-! ## What a construct builds -/

theorem span_of_typeDeclaration? {span : Span} {parts : List Part} {d : TypeDeclaration}
    (h : typeDeclaration? span parts = some d) : d.span = span := by
  have hdeclared {f : Bool → TypeDeclaration} (ps : List Part) (b : Bool)
      (hf : typeDeclaration?.declared span ps = some f) : (f b).span = span := by
    unfold typeDeclaration?.declared at hf
    split at hf <;> first | contradiction | (cases hf; rfl)
  unfold typeDeclaration? at h
  split at h <;>
    (obtain ⟨f, hf, rfl⟩ := Option.map_eq_some_iff.1 h; exact hdeclared _ _ hf)

theorem span_of_typeReference? {span : Span} {parts : List Part} {t : TypeNode}
    (h : typeReference? span parts = some t) : t.span = span := by
  unfold typeReference? at h
  split at h <;> first | contradiction | (cases h; rfl)

theorem span_of_functionType? {span : Span} {parts : List Part} {t : TypeNode}
    (h : functionType? span parts = some t) : t.span = span := by
  unfold functionType? at h
  split at h <;> first | contradiction | (cases h; rfl)

theorem span_of_methodCall? {span : Span} {parts : List Part} {e : Expression}
    (h : methodCall? span parts = some e) : e.span = span := by
  unfold methodCall? at h
  split at h <;> first | contradiction | (cases h; rfl)

theorem span_of_genericParameter? {span : Span} {variadic : Bool} {parts : List Part}
    {g : GenericParameter} (h : genericParameter? span variadic parts = some g) :
    g.span = span := by
  unfold genericParameter? at h
  split at h <;> first | contradiction | (cases h; rfl)

theorem span_parenthesizedType (span : Span) (items : List TypeNode) :
    (parenthesizedType span items).span = span := by
  unfold parenthesizedType
  split <;> rfl

/-- The plain expression that a construct builds, whatever its parts are. -/
def Construct.plain? : Construct → Option PlainExpression
  | operatorChain => some .operatorChain
  | unaryOperation => some .unaryOperation
  | typeAssertion => some .typeAssertion
  | literal => some .literal
  | interpolatedString => some .interpolatedString
  | table => some .table
  | function => some .function
  | ifExpression => some .ifExpression
  | instantiation => some .instantiation
  | _ => none

/-- The composite type that a construct makes of the types among its parts. -/
def Construct.composite? : Construct → Option CompositeType
  | unionType => some .union
  | optionalType => some .optional
  | singletonType => some .singleton
  | tableType => some .table
  | variadicType => some .variadic
  | _ => none

/-- What a construct at a span builds from which parts. -/
inductive Assembles (s : Span) : Construct → List Part → Part → Prop where
  | block {own} : Assembles s .block own
      (.block ⟨own.filterMap Part.statement?, own.findSome? Part.returned?⟩)
  | statement {own} : Assembles s .statement own (.statement (.plain s))
  | callStatement {e} (isCall : e.isCall = true) :
      Assembles s .callStatement [.expression e] (.statement (.plain s))
  | localNames {names} : Assembles s .localAssignment [.bindings names]
      (.statement (.localAssignment s names []))
  | localAssignment {names es} : Assembles s .localAssignment [.bindings names, .expressions es]
      (.statement (.localAssignment s names es))
  | typeDeclaration {own d} (built : typeDeclaration? s own = some d) :
      Assembles s .typeDeclaration own (.statement (.typeDeclaration d))
  | typeFunction {own} : Assembles s .typeFunction own (.statement (.typeFunction s))
  | returnNothing : Assembles s .returnStatement [] (.returned ⟨s, []⟩)
  | returnExpressions {es} : Assembles s .returnStatement [.expressions es] (.returned ⟨s, es⟩)
  | bindingList {own} : Assembles s .bindingList own (.bindings (own.filterMap Part.binding?))
  | binding {name own} : Assembles s .binding (.token name :: own) (.binding name.text)
  | expressionList {own} :
      Assembles s .expressionList own (.expressions (own.filterMap Part.expression?))
  | plain {l k own} (kind : l.plain? = some k) : Assembles s l own (.expression (.plain s k))
  | string {t value} (decoded : StringLiteral.decode t.text = .ok value) :
      Assembles s .string [.token t] (.expression (.string s value))
  | name {t} : Assembles s .name [.token t] (.expression (.name s t.text))
  | parenthesized {e} :
      Assembles s .parenthesized [.expression e] (.expression (.parenthesized s e))
  | fieldIndex {base name} : Assembles s .fieldIndex [.expression base, .token name]
      (.expression (.field s base name.text))
  | keyIndex {base key} : Assembles s .keyIndex [.expression base, .expression key]
      (.expression (.key s base key))
  | call {callee es style} : Assembles s .call [.expression callee, .arguments es style]
      (.expression (.call s callee es style))
  | methodCall {own e} (built : methodCall? s own = some e) :
      Assembles s .methodCall own (.expression e)
  | noArguments : Assembles s .parenthesizedArguments [] (.arguments [] .parentheses)
  | parenthesizedArguments {es} :
      Assembles s .parenthesizedArguments [.expressions es] (.arguments es .parentheses)
  | tableArguments {e} : Assembles s .tableArguments [.expression e] (.arguments [e] .table)
  | stringArguments {e} : Assembles s .stringArguments [.expression e] (.arguments [e] .string)
  | types {l own} (list : l = .typeInstantiation ∨ l = .typeArguments ∨ l = .typeList) :
      Assembles s l own (.types (own.filterMap Part.type?))
  | composite {l k own} (kind : l.composite? = some k) :
      Assembles s l own (.type (.composite s k (own.filterMap Part.type?)))
  | nilType {own} : Assembles s .nilType own (.type (.reference s none "nil".toList []))
  | typeofType {e} : Assembles s .typeofType [.expression e] (.type (.typeof s e))
  | emptyPack : Assembles s .parenthesizedType [] (.type (parenthesizedType s []))
  | parenthesizedType {ts} :
      Assembles s .parenthesizedType [.types ts] (.type (parenthesizedType s ts))
  | functionType {own t} (built : functionType? s own = some t) :
      Assembles s .functionType own (.type t)
  | typeReference {own t} (built : typeReference? s own = some t) :
      Assembles s .typeReference own (.type t)
  | genericPack {t} : Assembles s .genericPack [.token t] (.type (.packReference s t.text))
  | genericParameterList {own} :
      Assembles s .genericParameterList own (.generics (own.filterMap Part.generic?))
  | genericParameter {own g} (built : genericParameter? s false own = some g) :
      Assembles s .genericParameter own (.generic g)
  | genericPackParameter {own g} (built : genericParameter? s true own = some g) :
      Assembles s .genericPackParameter own (.generic g)

section Assemble

variable {l : Construct} {s : Span} {own : List Part} {p : Part}

theorem built_eq_ok_iff {α : Type} {wrap : α → Part} {a : Option α} :
    built wrap a = .ok p ↔ ∃ x, a = some x ∧ wrap x = p := by
  cases a <;> simp [built]

theorem callStatement_eq_ok_iff {e : Expression} :
    callStatement s e = .ok p ↔ e.isCall = true ∧ .statement (.plain s) = p := by
  unfold callStatement
  split <;> simp_all

theorem stringExpression_eq_ok_iff {cs : List Char} : stringExpression s cs = .ok p ↔
    ∃ value, StringLiteral.decode cs = .ok value ∧ .expression (.string s value) = p := by
  unfold stringExpression
  cases StringLiteral.decode cs <;> simp

/-- A construct builds what the relation says. -/
theorem assemble_eq_ok_iff : assemble l s own = .ok p ↔ Assembles s l own p := by
  constructor
  · intro h
    unfold assemble at h
    split at h
    all_goals first
      | contradiction
      | (cases h; constructor; done)
      | (cases h; exact .plain rfl)
      | (cases h; exact .composite rfl)
      | (cases h; exact .types (by simp))
      | skip
    · obtain ⟨hcall, rfl⟩ := callStatement_eq_ok_iff.1 h
      exact .callStatement hcall
    · obtain ⟨d, hd, rfl⟩ := built_eq_ok_iff.1 h
      exact .typeDeclaration hd
    · obtain ⟨value, hvalue, rfl⟩ := stringExpression_eq_ok_iff.1 h
      exact .string hvalue
    · obtain ⟨e, he, rfl⟩ := built_eq_ok_iff.1 h
      exact .methodCall he
    · obtain rfl := Except.ok.inj h
      exact .emptyPack
    · obtain ⟨t, ht, rfl⟩ := built_eq_ok_iff.1 h
      exact .functionType ht
    · obtain ⟨t, ht, rfl⟩ := built_eq_ok_iff.1 h
      exact .typeReference ht
    · obtain ⟨g, hg, rfl⟩ := built_eq_ok_iff.1 h
      exact .genericParameter hg
    · obtain ⟨g, hg, rfl⟩ := built_eq_ok_iff.1 h
      exact .genericPackParameter hg
  · intro h
    cases h with
    | callStatement isCall => exact callStatement_eq_ok_iff.2 ⟨isCall, rfl⟩
    | string decoded => exact stringExpression_eq_ok_iff.2 ⟨_, decoded, rfl⟩
    | typeDeclaration built | methodCall built | functionType built | typeReference built
    | genericParameter built | genericPackParameter built =>
      exact built_eq_ok_iff.2 ⟨_, built, rfl⟩
    | plain kind | composite kind => cases l <;> cases kind <;> rfl
    | types list => obtain rfl | rfl | rfl := list <;> rfl
    | _ => rfl

theorem built_eq_error {α : Type} {wrap : α → Part} {a : Option α} {fault : NodeFault}
    (h : built wrap a = .error fault) : fault = .malformed := by
  cases a <;> cases h
  rfl

theorem callStatement_eq_error {e : Expression} {fault : NodeFault}
    (h : callStatement s e = .error fault) : fault = .notACall e.span := by
  unfold callStatement at h
  split at h <;> cases h
  rfl

theorem stringExpression_eq_error {cs : List Char} {fault : NodeFault}
    (h : stringExpression s cs = .error fault) :
    ∃ f, StringLiteral.decode cs = .error f ∧ fault = .badString f := by
  unfold stringExpression at h
  split at h <;> cases h
  exact ⟨_, ‹_›, rfl⟩

/-- What keeps a construct from being built: its parts do not fit, an expression that stands as a
statement is no call, or a string literal cannot be decoded. -/
theorem fault_of_assemble {fault : NodeFault} (h : assemble l s own = .error fault) :
    fault = .malformed ∨
      (l = .callStatement ∧ ∃ e, own = [.expression e] ∧ fault = .notACall e.span) ∨
      (l = .string ∧ ∃ t f, own = [.token t] ∧ StringLiteral.decode t.text = .error f ∧
        fault = .badString f) := by
  unfold assemble at h
  simp only at h
  split at h
  all_goals first
    | (cases h; done)
    | (cases h; exact .inl rfl)
    | exact .inl (built_eq_error h)
    | skip
  · exact .inr (.inl ⟨rfl, _, rfl, callStatement_eq_error h⟩)
  · obtain ⟨f, hdecode, rfl⟩ := stringExpression_eq_error h
    exact .inr (.inr ⟨rfl, _, f, rfl, hdecode, rfl⟩)

theorem Construct.kind?_of_plain {k : PlainExpression} (h : l.plain? = some k) :
    l.kind? = some .expression := by
  cases l <;> first | rfl | contradiction

theorem Construct.kind?_of_composite {k : CompositeType} (h : l.composite? = some k) :
    l.kind? = some .type := by
  cases l <;> first | rfl | contradiction

/-- A construct builds a part of its kind that covers it. -/
theorem kind_of_assemble (h : assemble l s own = .ok p) :
    l.kind? = some p.kind ∧ p.Covers (some s) := by
  cases assemble_eq_ok_iff.1 h with
  | plain kind => exact ⟨Construct.kind?_of_plain kind, fun _ hs => hs⟩
  | composite kind => exact ⟨Construct.kind?_of_composite kind, fun _ hs => hs⟩
  | types list => exact ⟨by obtain rfl | rfl | rfl := list <;> rfl, fun _ hs => by cases hs⟩
  | typeDeclaration built => exact ⟨rfl, fun _ hs => span_of_typeDeclaration? built ▸ hs⟩
  | methodCall built => exact ⟨rfl, fun _ hs => span_of_methodCall? built ▸ hs⟩
  | functionType built => exact ⟨rfl, fun _ hs => span_of_functionType? built ▸ hs⟩
  | typeReference built => exact ⟨rfl, fun _ hs => span_of_typeReference? built ▸ hs⟩
  | genericParameter built | genericPackParameter built =>
    exact ⟨rfl, fun _ hs => span_of_genericParameter? built ▸ hs⟩
  | emptyPack | parenthesizedType => exact ⟨rfl, fun _ hs => span_parenthesizedType s _ ▸ hs⟩
  | _ => exact ⟨rfl, fun _ hs => by cases hs <;> rfl⟩

/-- What a statement is that is no type declaration. -/
theorem statement_of_assemble {st : Statement} (hl : l ≠ .typeDeclaration)
    (h : assemble l s own = .ok (.statement st)) :
    st = .plain s ∨ st = .typeFunction s ∨ ∃ names es, st = .localAssignment s names es := by
  cases assemble_eq_ok_iff.1 h with
  | statement | callStatement => exact .inl rfl
  | typeFunction => exact .inr (.inl rfl)
  | localNames | localAssignment => exact .inr (.inr ⟨_, _, rfl⟩)
  | typeDeclaration => exact absurd rfl hl

/-- What a construct builds a call or a name from, if it builds one. -/
theorem expression_of_assemble {e : Expression} (h : assemble l s own = .ok (.expression e)) :
    (l = .call ∧ ∃ callee es style,
        own = [.expression callee, .arguments es style] ∧ e = .call s callee es style) ∨
      (l = .name ∧ ∃ t, own = [.token t] ∧ e = .name s t.text) ∨
      ((∀ s' callee es style, e ≠ .call s' callee es style) ∧ ∀ s' w, e ≠ .name s' w) := by
  cases assemble_eq_ok_iff.1 h with
  | call => exact .inl ⟨rfl, _, _, _, rfl, rfl⟩
  | name => exact .inr (.inl ⟨rfl, _, rfl, rfl⟩)
  | methodCall built =>
    unfold methodCall? at built
    split at built <;> cases built <;> exact .inr (.inr ⟨by simp, by simp⟩)
  | _ => exact .inr (.inr ⟨by simp, by simp⟩)

/-- Arguments between parentheses are those of a construct of their own. -/
theorem arguments_of_assemble {es : List Expression}
    (h : assemble l s own = .ok (.arguments es .parentheses)) : l = .parenthesizedArguments := by
  cases assemble_eq_ok_iff.1 h <;> rfl

/-- A list of expressions is built from its members. -/
theorem expressions_of_assemble {es : List Expression}
    (h : assemble l s own = .ok (.expressions es)) :
    l = .expressionList ∧ es = own.filterMap Part.expression? := by
  cases assemble_eq_ok_iff.1 h
  exact ⟨rfl, rfl⟩

/-- A local assignment is built from its names and the expressions that are assigned. -/
theorem localAssignment_of_assemble {s' : Span} {names : List Name} {es : List Expression}
    (h : assemble l s own = .ok (.statement (.localAssignment s' names es))) :
    l = .localAssignment ∧ (own = [.bindings names] ∧ es = [] ∨
      own = [.bindings names, .expressions es]) := by
  cases assemble_eq_ok_iff.1 h with
  | localNames => exact ⟨rfl, .inl ⟨rfl, rfl⟩⟩
  | localAssignment => exact ⟨rfl, .inr rfl⟩

/-- A return is built from nothing or from the expressions that are returned. -/
theorem return_of_assemble {r : Return} (h : assemble l s own = .ok (.returned r)) :
    l = .returnStatement ∧ r.span = s ∧
      (own = [] ∧ r.expressions = [] ∨ own = [.expressions r.expressions]) := by
  cases assemble_eq_ok_iff.1 h with
  | returnNothing => exact ⟨rfl, rfl, .inl ⟨rfl, rfl⟩⟩
  | returnExpressions => exact ⟨rfl, rfl, .inr rfl⟩

end Assemble

/-! ## Shapes -/

/-- What the trees of a category contribute. -/
inductive PartShape where
  /-- One part of a kind, that covers the tree. -/
  | one (kind : PartKind)
  /-- Any number of parts of some kinds. -/
  | many (kinds : List PartKind)
  deriving DecidableEq

namespace PartShape

/-- The kinds of part of a shape. -/
def kinds : PartShape → List PartKind
  | one k => [k]
  | many ks => ks

/-- Whether the parts and the extent of a tree have a shape. -/
def Fits (parts : List Part) (span : Option Span) : PartShape → Prop
  | one k => ∃ p, parts = [p] ∧ p.kind = k ∧ p.Covers span
  | many ks => ∀ p ∈ parts, p.kind ∈ ks

theorem Fits.kind_mem {parts : List Part} {span : Option Span} {shape : PartShape}
    (h : shape.Fits parts span) : ∀ p ∈ parts, p.kind ∈ shape.kinds := by
  cases shape with
  | one k =>
    obtain ⟨p, rfl, hk, -⟩ := h
    simp only [List.mem_singleton, forall_eq, kinds]
    exact hk
  | many ks => exact h

end PartShape

/-- The shape of a category. Where nobody asks it is left open. -/
def Category.shape : Category → PartShape
  | .chunk | .block => .one .block
  | .statement | .continueStatement => .one .statement
  | .lastStatement => .many [.statement, .returned]
  | .statements => .many [.statement]
  | .bindingList => .one .bindings
  | .binding => .one .binding
  | .furtherBindings => .many [.binding]
  | .expressionList => .one .expressions
  | .furtherExpressions => .many [.expression]
  | .expression | .unaryExpression | .typeAssertion | .simpleExpression | .literal | .string
  | .suffixedExpression | .primaryExpression | .nameExpression | .tableConstructor =>
    .one .expression
  | .callArguments => .one .arguments
  | .type | .postfixType | .simpleType | .typeReference | .typeOrPack | .tableType => .one .type
  | .typeArguments | .typeList | .typeInstantiation => .one .types
  | .furtherTypesOrPacks | .furtherMembers => .many [.type]
  | .typeListItem | .furtherListItems | .tableTypeField | .furtherTypeFields =>
    .many [.token, .type]
  | .access | .propertyName => .many [.token]
  | .typeOperator | .fieldSeparator => .many []
  | .genericParameterList => .one .generics
  | .genericParameters => .many [.generics]
  | .genericParameter => .one .generic
  | .furtherGenericParameters => .many [.generic]
  | _ => .many PartKind.all

/-- The shape of a symbol. Only some tokens contribute a part. -/
def symbolShape : GrammarSymbol → PartShape
  | .token t => .many (if t.isContent then [.token] else [])
  | .category c => c.shape

/-- Whether a production contributes what its category says. -/
def fitsShape (p : Production Terminal Category Construct) : PartShape → Bool
  | .one k =>
    match p.construct.kind?, p.body with
    | some k', _ => k' = k
    | none, [.category c] => decide (c.shape = .one k)
    | none, _ => false
  | .many ks =>
    match p.construct.kind? with
    | some k => ks.contains k
    | none => p.body.all fun s => (symbolShape s).kinds.all ks.contains

theorem productions_shape_checked :
    (Category.all.all fun c => (productions c).all fun p => fitsShape p c.shape) = true := by
  decide

/-! ## Parts of trees -/

namespace Tree

variable {t : Tree} {ts : List Tree} {ps : List Part} {span : Option Span}

theorem parts_node_eq_ok {c : Category} {l : Construct} :
    (node c l ts).parts = .ok (ps, span) ↔
      ∃ own, partsOf ts = .ok (own, span) ∧ contribute l own span = .ok ps := by
  rw [parts]
  cases partsOf ts with
  | error e =>
    constructor
    · exact fun h => by contradiction
    · rintro ⟨own, h, -⟩
      contradiction
  | ok r =>
    obtain ⟨own, span'⟩ := r
    cases hc : contribute l own span' with
    | error e =>
      constructor
      · intro h
        simp only [bind, Except.bind, hc] at h
        contradiction
      · rintro ⟨own', h, h'⟩
        cases h
        rw [hc] at h'
        contradiction
    | ok ps' =>
      simp only [bind, Except.bind, hc, pure, Except.pure, Except.ok.injEq, Prod.mk.injEq]
      constructor
      · rintro ⟨rfl, rfl⟩
        exact ⟨own, ⟨rfl, rfl⟩, hc⟩
      · rintro ⟨own', ⟨rfl, rfl⟩, h'⟩
        rw [hc] at h'
        exact ⟨Except.ok.inj h', rfl⟩

theorem partsOf_cons_eq_ok :
    partsOf (t :: ts) = .ok (ps, span) ↔
      ∃ first s others s', t.parts = .ok (first, s) ∧ partsOf ts = .ok (others, s') ∧
        ps = first ++ others ∧ span = joinSpans s s' := by
  rw [partsOf]
  cases t.parts with
  | error e =>
    constructor
    · exact fun h => by contradiction
    · rintro ⟨first, s, others, s', h, -⟩
      contradiction
  | ok r =>
    obtain ⟨first, s⟩ := r
    cases partsOf ts with
    | error e =>
      constructor
      · exact fun h => by contradiction
      · rintro ⟨first, s, others, s', -, h, -⟩
        contradiction
    | ok r' =>
      obtain ⟨others, s'⟩ := r'
      simp only [bind, Except.bind, pure, Except.pure, Except.ok.injEq, Prod.mk.injEq]
      constructor
      · rintro ⟨rfl, rfl⟩
        exact ⟨first, s, others, s', ⟨rfl, rfl⟩, ⟨rfl, rfl⟩, rfl, rfl⟩
      · rintro ⟨first', s₁, others', s₂, ⟨rfl, rfl⟩, ⟨rfl, rfl⟩, rfl, rfl⟩
        exact ⟨rfl, rfl⟩

/-- A token contributes itself, if its text matters. -/
theorem partsOf_leaf_cons_eq_ok {tok : Token} :
    partsOf (leaf tok :: ts) = .ok (ps, span) ↔
      ∃ (others : List Part) (s : Option Span), partsOf ts = .ok (others, s) ∧
        ps = (if tok.terminal.isContent then [Part.token tok] else []) ++ others ∧
        span = joinSpans (some tok.span) s := by
  rw [partsOf_cons_eq_ok]
  constructor
  · rintro ⟨first, s, others, s', hfirst, hothers, rfl, rfl⟩
    cases hfirst
    exact ⟨others, s', hothers, rfl, rfl⟩
  · rintro ⟨others, s, hothers, rfl, rfl⟩
    exact ⟨_, _, others, s, rfl, hothers, rfl, rfl⟩

theorem joinSpans_assoc (a b c : Option Span) :
    joinSpans a (joinSpans b c) = joinSpans (joinSpans a b) c := by
  cases a <;> cases b <;> cases c <;> rfl

theorem joinSpans_none_right (s : Option Span) : joinSpans s none = s := by
  cases s <;> rfl

theorem partsOf_singleton : partsOf [t] = .ok (ps, span) ↔ t.parts = .ok (ps, span) := by
  rw [partsOf_cons_eq_ok]
  constructor
  · rintro ⟨first, s, others, s', h, hnil, rfl, rfl⟩
    cases hnil
    rwa [List.append_nil, joinSpans_none_right]
  · intro h
    exact ⟨ps, span, [], none, h, rfl, (List.append_nil ps).symm, (joinSpans_none_right span).symm⟩

theorem partsOf_append_eq_ok {us : List Tree} :
    partsOf (ts ++ us) = .ok (ps, span) ↔
      ∃ first s others s', partsOf ts = .ok (first, s) ∧ partsOf us = .ok (others, s') ∧
        ps = first ++ others ∧ span = joinSpans s s' := by
  induction ts generalizing ps span with
  | nil =>
    constructor
    · intro h
      exact ⟨[], none, ps, span, rfl, h, rfl, rfl⟩
    · rintro ⟨first, s, others, s', hnil, h, rfl, rfl⟩
      cases hnil
      exact h
  | cons t ts ih =>
    rw [List.cons_append, partsOf_cons_eq_ok]
    constructor
    · rintro ⟨a, sa, r, sr, ha, hr, rfl, rfl⟩
      obtain ⟨b, sb, c, sc, hb, hc, rfl, rfl⟩ := ih.1 hr
      exact ⟨a ++ b, joinSpans sa sb, c, sc, partsOf_cons_eq_ok.2 ⟨a, sa, b, sb, ha, hb, rfl, rfl⟩,
        hc, (List.append_assoc a b c).symm, joinSpans_assoc sa sb sc⟩
    · rintro ⟨ab, sab, c, sc, hab, hc, rfl, rfl⟩
      obtain ⟨a, sa, b, sb, ha, hb, rfl, rfl⟩ := partsOf_cons_eq_ok.1 hab
      exact ⟨a, sa, b ++ c, joinSpans sb sc, ha, ih.2 ⟨b, sb, c, sc, hb, hc, rfl, rfl⟩,
        List.append_assoc a b c, (joinSpans_assoc sa sb sc).symm⟩

theorem tokensOf_append (ts us : List Tree) : tokensOf (ts ++ us) = tokensOf ts ++ tokensOf us := by
  induction ts with
  | nil => rfl
  | cons t ts ih => rw [List.cons_append, tokensOf, tokensOf, ih, List.append_assoc]

/-- The extent of some tokens. -/
def extentOf : List Token → Option Span
  | [] => none
  | t :: ts => joinSpans (some t.span) (extentOf ts)

theorem extentOf_append (as bs : List Token) :
    extentOf (as ++ bs) = joinSpans (extentOf as) (extentOf bs) := by
  induction as with
  | nil => rfl
  | cons a as ih => rw [List.cons_append, extentOf, ih, joinSpans_assoc, extentOf]

theorem extentOf_eq_none_iff {tokens : List Token} : extentOf tokens = none ↔ tokens = [] := by
  cases tokens with
  | nil => simp [extentOf]
  | cons t ts =>
    rw [extentOf]
    cases extentOf ts <;> simp [joinSpans]

mutual

/-- The extent of a tree is that of its tokens. -/
theorem span_of_parts {t : Tree} {ps : List Part} {span : Option Span}
    (h : t.parts = .ok (ps, span)) : span = extentOf t.tokens := by
  match t with
  | leaf t =>
    cases h
    rfl
  | node c l ts =>
    obtain ⟨own, hown, -⟩ := parts_node_eq_ok.1 h
    exact span_of_partsOf hown

theorem span_of_partsOf {ts : List Tree} {ps : List Part} {span : Option Span}
    (h : partsOf ts = .ok (ps, span)) : span = extentOf (tokensOf ts) := by
  match ts with
  | [] =>
    cases h
    rfl
  | t :: ts =>
    obtain ⟨first, s, others, s', ht, hts, rfl, rfl⟩ := partsOf_cons_eq_ok.1 h
    rw [tokensOf, extentOf_append, span_of_parts ht, span_of_partsOf hts]

end

/-- A part of some trees comes from one of them. -/
theorem mem_of_partsOf (h : partsOf ts = .ok (ps, span)) {p : Part} (hp : p ∈ ps) :
    ∃ t ∈ ts, ∃ own s, t.parts = .ok (own, s) ∧ p ∈ own := by
  induction ts generalizing ps span with
  | nil =>
    cases h
    contradiction
  | cons t ts ih =>
    obtain ⟨first, s, others, s', ht, hts, rfl, -⟩ := partsOf_cons_eq_ok.1 h
    rcases List.mem_append.1 hp with hp | hp
    · exact ⟨t, List.mem_cons_self, first, s, ht, hp⟩
    · obtain ⟨t', ht', own, s₁, hown, hmem⟩ := ih hts hp
      exact ⟨t', List.mem_cons_of_mem _ ht', own, s₁, hown, hmem⟩

theorem parts_of_partsOf (h : partsOf ts = .ok (ps, span)) (ht : t ∈ ts) :
    ∃ own s, t.parts = .ok (own, s) ∧ ∀ p ∈ own, p ∈ ps := by
  induction ts generalizing ps span with
  | nil => contradiction
  | cons u us ih =>
    obtain ⟨first, s, others, s', hu, hus, rfl, -⟩ := partsOf_cons_eq_ok.1 h
    rcases List.mem_cons.1 ht with rfl | ht
    · exact ⟨first, s, hu, fun p hp => List.mem_append_left _ hp⟩
    · obtain ⟨own, s₁, hown, hmem⟩ := ih hus ht
      exact ⟨own, s₁, hown, fun p hp => List.mem_append_right _ (hmem p hp)⟩

/-- A node that is no splice contributes what its construct builds; the block of no trees is
empty. -/
theorem contribute_eq_ok {l : Construct} {own : List Part} (hl : l ≠ .spliced)
    (h : contribute l own span = .ok ps) :
    (∃ s p, span = some s ∧ assemble l s own = .ok p ∧ ps = [p]) ∨
      (l = .block ∧ span = none ∧ ps = [.block ⟨[], none⟩]) := by
  unfold contribute at h
  split at h
  · contradiction
  · rename_i s _
    cases hp : assemble l s own with
    | error e =>
      rw [hp] at h
      contradiction
    | ok p =>
      rw [hp] at h
      exact .inl ⟨s, p, rfl, hp, (Except.ok.inj h).symm⟩
  · exact .inr ⟨rfl, rfl, (Except.ok.inj h).symm⟩
  · contradiction

theorem contribute_of_assemble {l : Construct} {s : Span} {own : List Part} {p : Part}
    (hl : l ≠ .spliced) (h : assemble l s own = .ok p) : contribute l own (some s) = .ok [p] := by
  unfold contribute
  split
  · exact absurd rfl hl
  · rename_i heq
    cases heq
    rw [h]
    rfl
  · contradiction
  · contradiction

@[simp] theorem contribute_spliced (own : List Part) (span : Option Span) :
    contribute .spliced own span = .ok own := by
  cases span <;> rfl

/-- A node with a construct that builds a part contributes that alone. -/
theorem part_of_contribute {l : Construct} {own : List Part} {k : PartKind} (hl : l.kind? = some k)
    (h : contribute l own span = .ok ps) : ∃ p, ps = [p] ∧ p.kind = k ∧ p.Covers span := by
  have hne : l ≠ .spliced := by
    rintro rfl
    contradiction
  rcases contribute_eq_ok hne h with ⟨s, p, rfl, hp, rfl⟩ | ⟨rfl, rfl, rfl⟩
  · obtain ⟨hkind, hcovers⟩ := kind_of_assemble hp
    rw [hl] at hkind
    exact ⟨p, rfl, (Option.some.inj hkind).symm, hcovers⟩
  · exact ⟨_, rfl, Option.some.inj hl, fun s hs => by cases hs⟩

/-- A well-formed tree contributes what its category says. -/
theorem WellFormed.fits (h : t.WellFormed) (hparts : t.parts = .ok (ps, span)) :
    (symbolShape t.symbol).Fits ps span := by
  induction h generalizing ps span with
  | leaf t =>
    rw [parts] at hparts
    cases hparts
    by_cases ht : t.terminal.isContent = true
    · simp [symbol, symbolShape, ht, PartShape.Fits, Part.kind]
    · simp [ht, symbol, symbolShape, PartShape.Fits]
  | @node c l ts hproduction _ ih =>
    obtain ⟨own, hown, hcontribute⟩ := parts_node_eq_ok.1 hparts
    have hfits := List.all_eq_true.1 (List.all_eq_true.1 productions_shape_checked c
      (Category.mem_all c)) _ hproduction
    change c.shape.Fits ps span
    cases hl : l.kind? with
    | some k =>
      obtain ⟨p, rfl, hk, hcovers⟩ := part_of_contribute hl hcontribute
      unfold fitsShape at hfits
      cases hshape : c.shape with
      | one k' =>
        simp only [hshape, hl, decide_eq_true_eq] at hfits
        exact ⟨p, rfl, by rw [hk, hfits], hcovers⟩
      | many ks =>
        simp only [hshape, hl, List.contains_iff_mem] at hfits
        simpa [PartShape.Fits, hk] using hfits
    | none =>
      obtain rfl : l = .spliced := by cases l <;> first | rfl | contradiction
      rw [contribute_spliced] at hcontribute
      obtain rfl := Except.ok.inj hcontribute
      unfold fitsShape at hfits
      cases hshape : c.shape with
      | one k =>
        simp only [hshape, hl] at hfits
        split at hfits
        · contradiction
        · rename_i c' hbody
          obtain ⟨t, rfl, ht⟩ := List.map_eq_singleton_iff.1 hbody
          have := ih t List.mem_cons_self (partsOf_singleton.1 hown)
          rw [ht] at this
          simpa [symbolShape, of_decide_eq_true hfits] using this
        · contradiction
      | many ks =>
        simp only [hshape, hl, List.all_map, List.all_eq_true, Function.comp_apply,
          List.contains_iff_mem] at hfits
        intro p hp
        obtain ⟨t, ht, own', s, hown', hp'⟩ := mem_of_partsOf hown hp
        exact hfits t ht _ ((ih t ht hown').kind_mem p hp')

end Tree

end TypedLinks.Luau
