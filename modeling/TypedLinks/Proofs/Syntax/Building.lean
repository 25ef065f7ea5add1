import TypedLinks.Proofs.Parsing.Extent
import TypedLinks.Proofs.Parsing.Tokens
import TypedLinks.Proofs.Syntax.Chunk

/-!
# What can be built

Two things only keep a parse tree from being a chunk: a string literal that cannot be decoded, and
an expression that stands as a statement and is no call. Any other construct takes the parts that
its productions give it, which is checked production by production.
-/

namespace TypedLinks.Luau

open Grammar

/-! ## Parts that the grammar promises -/

/-- What the grammar tells about a part: the terminal of a token, or its kind. -/
inductive PartForm where
  | token (t : Terminal)
  | part (k : PartKind)
  deriving DecidableEq

namespace Part

/-- What the grammar tells about a part. -/
def form : Part → PartForm
  | token t => .token t.terminal
  | p => .part p.kind

variable {p : Part}

theorem form_eq_token {t : Terminal} :
    p.form = .token t ↔ ∃ text span, p = .token ⟨t, text, span⟩ := by
  cases p with
  | token tok =>
    obtain ⟨t', text, span⟩ := tok
    simp [form]
  | _ => simp [form]

theorem form_eq_part {k : PartKind} : p.form = .part k ↔ p.kind = k ∧ k ≠ .token := by
  cases p <;> cases k <;> simp [form, kind]

theorem kind_eq_bindings : p.kind = .bindings ↔ ∃ names, p = .bindings names := by
  cases p <;> simp [kind]

theorem kind_eq_expression : p.kind = .expression ↔ ∃ e, p = .expression e := by
  cases p <;> simp [kind]

theorem kind_eq_expressions : p.kind = .expressions ↔ ∃ es, p = .expressions es := by
  cases p <;> simp [kind]

theorem kind_eq_arguments : p.kind = .arguments ↔ ∃ es style, p = .arguments es style := by
  cases p <;> simp [kind]

theorem kind_eq_type : p.kind = .type ↔ ∃ t, p = .type t := by
  cases p <;> simp [kind]

theorem kind_eq_types : p.kind = .types ↔ ∃ ts, p = .types ts := by
  cases p <;> simp [kind]

theorem kind_eq_generics : p.kind = .generics ↔ ∃ gs, p = .generics gs := by
  cases p <;> simp [kind]

end Part

/-- What a symbol contributes, where the grammar fixes that. -/
def symbolForms? : GrammarSymbol → Option (List PartForm)
  | .token t => some (if t.isContent then [.token t] else [])
  | .category .genericParameters => some [.part .generics]
  | .category c =>
    match c.shape with
    | .one k => some [.part k]
    | .many _ => none

/-- The test that parts have to pass for a construct to be built from them, apart from what a string
literal or a call holds. Most constructs take any parts. -/
def Construct.wants? : Construct → Option (List PartForm → Bool)
  | .callStatement | .parenthesized | .typeofType | .tableArguments | .stringArguments =>
    some fun fs => fs = [.part .expression]
  | .localAssignment => some fun fs =>
    fs = [.part .bindings] ∨ fs = [.part .bindings, .part .expressions]
  | .typeDeclaration => some fun fs =>
    [[], [PartForm.token .kwExport]].any fun first =>
      fs = first ++ [.token .kwType, .token .name, .part .generics, .part .type] ∨
        fs = first ++ [.token .kwType, .token .name, .part .type]
  | .returnStatement | .parenthesizedArguments => some fun fs => fs = [] ∨ fs = [.part .expressions]
  | .string => some fun fs => fs = [.token .quoted]
  | .name => some fun fs =>
    [Terminal.name, .kwType, .kwExport, .kwContinue].any fun t => fs = [.token t]
  | .genericPack => some fun fs => fs = [.token .name]
  | .fieldIndex => some fun fs => fs = [.part .expression, .token .name]
  | .keyIndex => some fun fs => fs = [.part .expression, .part .expression]
  | .call => some fun fs => fs = [.part .expression, .part .arguments]
  | .methodCall => some fun fs => fs = [.part .expression, .token .name, .part .arguments] ∨
    fs = [.part .expression, .token .name, .part .types, .part .arguments]
  | .parenthesizedType => some fun fs => fs = [] ∨ fs = [.part .types]
  | .functionType => some fun fs => fs = [.part .type] ∨ fs = [.part .types, .part .type] ∨
    fs = [.part .generics, .part .type] ∨ fs = [.part .generics, .part .types, .part .type]
  | .typeReference => some fun fs => fs = [.token .name] ∨ fs = [.token .name, .part .types] ∨
    fs = [.token .name, .token .name] ∨ fs = [.token .name, .token .name, .part .types]
  | .binding | .genericParameter | .genericPackParameter => some fun fs =>
    fs = [.token .name] ∨ fs = [.token .name, .part .type]
  | _ => none

/-- Whether a production gives its construct the parts that this takes. -/
def suits (p : Production Terminal Category Construct) : Bool :=
  match p.construct.wants? with
  | none => true
  | some test => (p.body.mapM symbolForms?).any fun fs => test fs.flatten

theorem productions_suit_checked :
    (Category.all.all fun c => (productions c).all suits) = true := by
  decide

/-! ## Faults -/

/-- The faults that a source can cause. -/
inductive NodeFault.OfSource : NodeFault → Prop where
  | badString (fault : StringLiteral.Fault) : OfSource (.badString fault)
  | notACall (span : Span) : OfSource (.notACall span)

variable {l : Construct} {s : Span} {own : List Part} {fault : NodeFault}

/-- From parts that it takes, a construct is built unless the source is at fault. -/
theorem ofSource_of_assemble (hl : l ≠ .spliced)
    (htest : ∀ test, l.wants? = some test → test (own.map Part.form) = true)
    (h : assemble l s own = .error fault) : fault.OfSource := by
  cases hwants : l.wants? with
  | none => cases l <;> contradiction
  | some test =>
    have htest := htest test hwants
    -- The test leaves a few lists of parts, and each of them is a case of `assemble`.
    cases l <;> cases hwants <;>
      simp only [List.map_eq_cons_iff, List.map_eq_nil_iff, List.any_cons, List.any_nil,
        List.nil_append, List.cons_append, decide_eq_true_eq, Bool.decide_or, Bool.or_eq_true,
        Bool.or_false, ne_eq, reduceCtorEq, not_false_eq_true, and_true, Part.form_eq_token,
        Part.form_eq_part, Part.kind_eq_bindings, Part.kind_eq_expression,
        Part.kind_eq_expressions, Part.kind_eq_arguments, Part.kind_eq_type, Part.kind_eq_types,
        Part.kind_eq_generics] at htest
    all_goals try casesm* _ ∨ _, Exists _, _ ∧ _
    all_goals subst_vars
    all_goals first
      | contradiction
      | (rw [callStatement_eq_error h]; exact .notACall _)
      | (obtain ⟨f, -, rfl⟩ := stringExpression_eq_error h; exact .badString f)

namespace Tree

variable {t : Tree} {ts : List Tree} {ps : List Part} {span : Option Span}

/-- A well-formed tree contributes what the grammar promises. -/
theorem WellFormed.forms {fs : List PartForm} (h : t.WellFormed) (hparts : t.parts = .ok (ps, span))
    (hfs : symbolForms? t.symbol = some fs) : ps.map Part.form = fs := by
  cases t with
  | leaf tok =>
    cases hparts
    cases hfs
    by_cases htok : tok.terminal.isContent = true <;> simp [htok, Part.form]
  | node c l ts =>
    by_cases hc : c = .genericParameters
    · subst hc
      obtain ⟨gs, rfl, -⟩ := parts_genericParameters h hparts
      exact Option.some.inj hfs
    · have hfits := h.fits hparts
      have hforms : symbolForms? (.category c) =
          match c.shape with
          | .one k => some [.part k]
          | .many _ => none := by
        unfold symbolForms?
        split <;> first | contradiction | (rename_i heq; cases heq; first | rfl | contradiction)
      have htoken : c.shape ≠ .one .token := by cases c <;> simp [Category.shape]
      change symbolForms? (.category c) = some fs at hfs
      rw [hforms] at hfs
      cases hshape : c.shape with
      | many ks =>
        rw [hshape] at hfs
        contradiction
      | one k =>
        rw [hshape] at hfs htoken
        obtain rfl := Option.some.inj hfs
        obtain ⟨p, rfl, hkind, -⟩ : (PartShape.one k).Fits ps span := hshape ▸ hfits
        rw [List.map_singleton, Part.form_eq_part.2 ⟨hkind, fun hk => htoken (by rw [hk])⟩]

theorem forms_of_partsOf {fs : List (List PartForm)} (h : ∀ t ∈ ts, t.WellFormed)
    (hparts : partsOf ts = .ok (ps, span)) (hfs : (ts.map symbol).mapM symbolForms? = some fs) :
    ps.map Part.form = fs.flatten := by
  induction ts generalizing ps span fs with
  | nil =>
    cases hparts
    cases hfs
    rfl
  | cons t ts ih =>
    obtain ⟨first, s, others, s', ht, hts, rfl, -⟩ := partsOf_cons_eq_ok.1 hparts
    rw [List.map_cons, List.mapM_cons] at hfs
    obtain ⟨f, hf, hfs⟩ := Option.bind_eq_some_iff.1 hfs
    obtain ⟨fs', hfs', heq⟩ := Option.bind_eq_some_iff.1 hfs
    obtain rfl := Option.some.inj heq
    rw [List.map_append, (h t List.mem_cons_self).forms ht hf,
      ih (fun t' ht' => h t' (List.mem_cons_of_mem _ ht')) hts hfs', List.flatten_cons]

theorem exists_of_partsOf_eq_error (h : partsOf ts = .error fault) :
    ∃ t ∈ ts, t.parts = .error fault := by
  induction ts with
  | nil => contradiction
  | cons t ts ih =>
    rw [partsOf] at h
    cases ht : t.parts with
    | error e =>
      rw [ht] at h
      cases h
      exact ⟨t, List.mem_cons_self, ht⟩
    | ok r =>
      rw [ht] at h
      cases hts : partsOf ts with
      | error e =>
        rw [hts] at h
        cases h
        obtain ⟨t', ht', he⟩ := ih hts
        exact ⟨t', List.mem_cons_of_mem _ ht', he⟩
      | ok r' =>
        rw [hts] at h
        contradiction

theorem contribute_eq_error (hl : l ≠ .spliced) (h : contribute l own span = .error fault) :
    (∃ s, span = some s ∧ assemble l s own = .error fault) ∨ (span = none ∧ l ≠ .block) := by
  unfold contribute at h
  split at h
  · contradiction
  · rename_i s _
    cases hp : assemble l s own with
    | error e =>
      rw [hp] at h
      cases h
      exact .inl ⟨s, rfl, hp⟩
    | ok p =>
      rw [hp] at h
      contradiction
  · contradiction
  · rename_i hblock
    exact .inr ⟨rfl, hblock⟩

theorem parts_node_eq_error {c : Category} :
    (node c l ts).parts = .error fault ↔
      partsOf ts = .error fault ∨ ∃ own span, partsOf ts = .ok (own, span) ∧
        contribute l own span = .error fault := by
  rw [parts]
  rcases partsOf ts with e | ⟨own, span⟩
  · simp [bind, Except.bind]
  · cases hc : contribute l own span <;> simp [bind, Except.bind, pure, Except.pure, hc]

/-- The construct of a node takes what its children contribute. -/
theorem WellFormed.wants {c : Category} (h : (Tree.node c l ts).WellFormed)
    (hown : partsOf ts = .ok (own, span)) {test : List PartForm → Bool}
    (htest : l.wants? = some test) : test (own.map Part.form) = true := by
  have hsuits := List.all_eq_true.1 (List.all_eq_true.1 productions_suit_checked c
    (Category.mem_all c)) _ h.production
  simp only [suits, htest, Option.any_eq_true] at hsuits
  obtain ⟨fs, hfs, htrue⟩ := hsuits
  rwa [forms_of_partsOf h.children hown hfs]

/-- Only a block has no extent. -/
theorem WellFormed.construct_of_no_extent {c : Category} (h : (Tree.node c l ts).WellFormed)
    (hown : partsOf ts = .ok (own, none)) : l = .spliced ∨ l = .block := by
  have htokens := extentOf_eq_none_iff.1 (span_of_partsOf hown).symm
  by_cases hblock : c = .block
  · subst hblock
    exact .inr (block_cases h).1
  by_cases hchunk : c = .chunk
  · subst hchunk
    have hp : (⟨l, ts.map symbol⟩ : Production Terminal Category Construct) ∈
        [⟨.spliced, [.category .block]⟩] := h.production
    simp only [List.mem_singleton, Production.mk.injEq] at hp
    exact .inl hp.1
  · exact absurd htokens
      (h.tokens_ne_nil (by simpa [symbol] using hblock) (by simpa [symbol] using hchunk))

theorem WellFormed.within {u : Tree} (h : t.WellFormed) (hu : u.Within t) : u.WellFormed := by
  induction hu with
  | self => exact h
  | child mem _ ih => exact ih (h.children _ mem)

/-- In a well-formed tree that is not built some construct cannot be built from what the children of
its node contribute. -/
theorem WellFormed.exists_fault (h : t.WellFormed) (hparts : t.parts = .error fault) :
    ∃ c l ts own s, (Tree.node c l ts).Within t ∧ l ≠ .spliced ∧ partsOf ts = .ok (own, some s) ∧
      assemble l s own = .error fault := by
  induction h with
  | leaf t => contradiction
  | @node c l ts hproduction hchildren ih =>
    have hwell := WellFormed.node hproduction hchildren
    rcases parts_node_eq_error.1 hparts with hts | ⟨own, span, hown, hcontribute⟩
    · obtain ⟨t, ht, he⟩ := exists_of_partsOf_eq_error hts
      obtain ⟨c', l', ts', own, s, hwithin, hl, hown, hp⟩ := ih t ht he
      exact ⟨c', l', ts', own, s, .child ht hwithin, hl, hown, hp⟩
    have hspliced : l ≠ .spliced := by
      rintro rfl
      rw [contribute_spliced] at hcontribute
      contradiction
    rcases contribute_eq_error hspliced hcontribute with ⟨s, rfl, hp⟩ | ⟨rfl, hblock⟩
    · exact ⟨c, l, ts, own, s, .self _, hspliced, hown, hp⟩
    · exact absurd (hwell.construct_of_no_extent hown) (not_or.2 ⟨hspliced, hblock⟩)

/-- A well-formed tree has its parts, unless the source is at fault. -/
theorem WellFormed.ofSource (h : t.WellFormed) (hparts : t.parts = .error fault) :
    fault.OfSource := by
  obtain ⟨c, l, ts, own, s, hwithin, hl, hown, hp⟩ := h.exists_fault hparts
  exact ofSource_of_assemble hl (fun test => (h.within hwithin).wants hown) hp

theorem WellFormed.ofSource_of_block (h : t.WellFormed) (ht : t.symbol = .category .chunk)
    (hblock : t.block = .error fault) : fault.OfSource := by
  unfold block at hblock
  cases hparts : t.parts with
  | error e =>
    rw [hparts] at hblock
    cases hblock
    exact h.ofSource hparts
  | ok r =>
    obtain ⟨ps, span⟩ := r
    obtain ⟨p, rfl, hkind, -⟩ : (PartShape.one .block).Fits ps span := by
      have hfits := h.fits hparts
      rwa [ht] at hfits
    cases p <;> cases hkind
    rw [hparts] at hblock
    contradiction

end Tree

variable {file : Text} {source : List Char}

/-- A source that is parsed but has no chunk has a tree with a fault that is no problem of the
source. -/
theorem block_of_parse (hfile : file ≠ []) (h : parse file source = .error (.unbuildable fault)) :
    ∃ tree, parseTree source = .ok tree ∧ tree.block = .error fault ∧ ∀ s, fault ≠ .notACall s := by
  unfold parse at h
  cases htree : parseTree source with
  | error e =>
    rw [htree] at h
    cases h
  | ok tree =>
    rw [htree] at h
    dsimp only at h
    rw [Chunk.ofTree, if_neg fun hunnamed => hfile hunnamed.1] at h
    cases hblock : tree.block with
    | ok b =>
      rw [hblock] at h
      contradiction
    | error e =>
      rw [hblock] at h
      cases e <;> cases h <;> exact ⟨tree, rfl, hblock, by rintro s ⟨⟩⟩

/-- A file whose source is parsed but has no chunk holds a string literal that cannot be decoded. -/
theorem badString_of_parse (hfile : file ≠ [])
    (h : parse file source = .error (.unbuildable fault)) : ∃ f, fault = .badString f := by
  obtain ⟨tree, htree, hblock, hcall⟩ := block_of_parse hfile h
  obtain ⟨b, -, rfl⟩ := parseTree_eq_ok_iff.1 htree
  cases (wellFormed_of_parseTree htree).ofSource_of_block rfl hblock with
  | badString f => exact ⟨f, rfl⟩
  | notACall s => exact absurd rfl (hcall s)

end TypedLinks.Luau
