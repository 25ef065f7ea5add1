import TypedLinks.Proofs.Parsing.Viable
import TypedLinks.Proofs.Syntax.Problems

/-!
# Signatures

How many parts of which kinds a construct takes, as a row of slots: one part, a part that may be
missing, or any number of parts. Each tree hands the parts of its category to the node above it, and
what the children of a node hand up fits the slots of the construct. Both are checked production by
production.
-/

namespace TypedLinks.Luau

open Grammar

/-! ## Slots -/

/-- A place for parts of some forms. -/
inductive Slot where
  | one (forms : List PartForm)
  | optional (forms : List PartForm)
  | many (forms : List PartForm)

namespace Slot

/-- The forms of part that a slot takes. -/
def forms : Slot → List PartForm
  | one fs | optional fs | many fs => fs

/-- Whether a slot may stay empty. -/
def mayLack : Slot → Bool
  | one _ => false
  | optional _ | many _ => true

/-- Whether a slot may take several parts. -/
def repeats : Slot → Bool
  | many _ => true
  | one _ | optional _ => false

/-- The parts that a slot takes. -/
def Holds : Slot → List PartForm → Prop
  | one fs, gs => ∃ f ∈ fs, gs = [f]
  | optional fs, gs => gs = [] ∨ ∃ f ∈ fs, gs = [f]
  | many fs, gs => ∀ g ∈ gs, g ∈ fs

/-- Whether a slot takes everything that another one does. -/
def within (a b : Slot) : Bool :=
  a.forms.all b.forms.contains && (b.repeats || !a.repeats && (b.mayLack || !a.mayLack))

/-- What is left of a row of slots when the parts of a slot have been put in. -/
def pass (a : Slot) : List Slot → Option (List Slot)
  | [] => none
  | b :: s => if a.within b then some (if b.repeats then b :: s else s)
    else if b.mayLack then a.pass s else none

/-- Whether a row of slots takes everything that another one does. -/
def covers (s p : List Slot) : Bool :=
  (p.foldlM (fun (s : List Slot) (a : Slot) => a.pass s) s).any (·.all mayLack)

/-- A row of slots takes parts, slot by slot. -/
inductive Takes : List Slot → List PartForm → Prop where
  | nil : Takes [] []
  | cons {a : Slot} {s : List Slot} {fs gs : List PartForm} (first : a.Holds fs)
      (others : Takes s gs) : Takes (a :: s) (fs ++ gs)

variable {a b : Slot} {s s' p : List Slot} {fs gs : List PartForm}

theorem takes_one {f : PartForm} (h : f ∈ fs) : Takes [.one fs] [f] :=
  .cons (a := .one fs) ⟨f, h, rfl⟩ .nil

theorem Takes.append (h : Takes s fs) (h' : Takes s' gs) : Takes (s ++ s') (fs ++ gs) := by
  induction h with
  | nil => exact h'
  | cons hfirst _ ih =>
    rw [List.append_assoc]
    exact .cons hfirst ih

theorem holds_nil (h : a.mayLack = true) : a.Holds [] := by
  cases a with
  | one fs => contradiction
  | optional fs => exact .inl rfl
  | many fs => exact nofun

theorem takes_nil (h : s.all mayLack = true) : Takes s [] := by
  induction s with
  | nil => exact .nil
  | cons a s ih =>
    rw [List.all_cons, Bool.and_eq_true] at h
    exact .cons (holds_nil h.1) (ih h.2)

theorem Holds.forms_mem (h : a.Holds fs) : ∀ f ∈ fs, f ∈ a.forms := by
  cases a with
  | one gs =>
    obtain ⟨f, hf, rfl⟩ := h
    simpa [forms] using hf
  | optional gs =>
    rcases h with rfl | ⟨f, hf, rfl⟩
    · exact nofun
    · simpa [forms] using hf
  | many gs => exact h

theorem Holds.of_within (h : a.Holds fs) (hwithin : a.within b = true) : b.Holds fs := by
  rw [within, Bool.and_eq_true, List.all_eq_true] at hwithin
  obtain ⟨hforms, hcount⟩ := hwithin
  have hmem {f : PartForm} (hf : f ∈ a.forms) : f ∈ b.forms := List.contains_iff_mem.1 (hforms f hf)
  cases b with
  | many gs => exact fun f hf => hmem (h.forms_mem f hf)
  | one gs =>
    cases a with
    | one fs' =>
      obtain ⟨f, hf, rfl⟩ := h
      exact ⟨f, hmem hf, rfl⟩
    | optional => contradiction
    | many => contradiction
  | optional gs =>
    cases a with
    | one fs' =>
      obtain ⟨f, hf, rfl⟩ := h
      exact .inr ⟨f, hmem hf, rfl⟩
    | optional fs' =>
      rcases h with rfl | ⟨f, hf, rfl⟩
      · exact .inl rfl
      · exact .inr ⟨f, hmem hf, rfl⟩
    | many => contradiction

theorem Takes.of_pass (h : a.Holds fs) (hpass : a.pass s = some s') (htakes : Takes s' gs) :
    Takes s (fs ++ gs) := by
  induction s with
  | nil => contradiction
  | cons b s ih =>
    rw [pass] at hpass
    split at hpass
    · rename_i hwithin
      have hholds := h.of_within hwithin
      obtain rfl := Option.some.inj hpass
      split at htakes
      · rename_i hrepeats
        cases htakes with
        | @cons _ _ xs ys hfirst hothers =>
          rw [← List.append_assoc]
          refine .cons ?_ hothers
          cases b with
          | many forms =>
            intro f hf
            exact (List.mem_append.1 hf).elim (hholds f) (hfirst f)
          | one => contradiction
          | optional => contradiction
      · exact .cons hholds htakes
    · split at hpass
      · rename_i hlack
        rw [← List.nil_append (fs ++ gs)]
        exact .cons (holds_nil hlack) (ih hpass)
      · contradiction

/-- What one row of slots takes is taken by a row that covers it. -/
theorem Takes.of_covers (h : Takes p fs) (hcovers : covers s p = true) : Takes s fs := by
  rw [covers, Option.any_eq_true] at hcovers
  obtain ⟨s', hfold, hlack⟩ := hcovers
  induction h generalizing s with
  | nil =>
    cases hfold
    exact takes_nil hlack
  | cons hfirst _ ih =>
    rw [List.foldlM_cons] at hfold
    obtain ⟨s₁, hpass, hfold⟩ := Option.bind_eq_some_iff.1 hfold
    exact .of_pass hfirst hpass (ih hfold)

end Slot

/-! ## What trees hand up -/

namespace Slot

/-- A slot for a token. -/
def word (first : Terminal) (others : List Terminal) : Slot := one ((first :: others).map .token)

/-- A slot for a part that is no token. -/
def part (k : PartKind) : Slot := one [.part k]

/-- A slot for a part that may be missing. -/
def maybe (k : PartKind) : Slot := optional [.part k]

/-- Slots for one part or more. -/
def several (k : PartKind) : List Slot := [part k, many [.part k]]

end Slot

open Slot (word part maybe several)

/-- The words that are names as well. -/
def nameWords : List Terminal := [.kwType, .kwExport, .kwContinue]

/-- The parts of the attributes, the head and the body of a function. -/
def functionParts : Slot :=
  .many [.token .name, .part .arguments, .part .generics, .part .binding, .part .type, .part .block]

/-- The parts of the fields of a table. -/
def fieldParts : Slot := .many (.part .expression :: (.name :: nameWords).map .token)

/-- The parts of the fields of a table type. -/
def typeFieldParts : Slot :=
  .many [.token .name, .token .kwRead, .token .kwWrite, .part .type]

/-- The parts of the items of a list of types, which may be named. -/
def listParts : Slot := .many [.token .name, .part .type]

/-- What a tree of a category hands to the node above it. -/
def Category.hands : Category → List Slot
  | .chunk | .block => [part .block]
  | .statement | .continueStatement => [part .statement]
  | .lastStatement => [.one [.part .statement, .part .returned]]
  | .statements => several .statement
  | .assignmentTargets | .furtherTargets | .furtherExpressions | .operations | .elseifExpressions
  | .elseifExpression => several .expression
  | .elseifClause | .elseifClauses => [.many [.part .expression, .part .block]]
  | .elseClause => [part .block]
  | .bindingList => [part .bindings]
  | .binding => [part .binding]
  | .furtherBindings => several .binding
  | .attribute | .attributes | .furtherAttributeEntries =>
    [.many [.token .name, .part .arguments]]
  | .attributeEntry => [word .name [], maybe .arguments]
  | .functionName => [word .name [], .many [.token .name]]
  | .nameSuffixes => [.many [.token .name]]
  | .functionBody => [maybe .generics, .many [.part .binding, .part .type], part .block]
  | .parameterList => [.many [.part .binding, .part .type]]
  | .variadicParameter => [maybe .type]
  | .expressionList => [part .expressions]
  | .expression | .unaryExpression | .typeAssertion | .simpleExpression | .literal | .string
  | .suffixedExpression | .primaryExpression | .nameExpression | .tableConstructor =>
    [part .expression]
  | .binaryOperator | .unaryOperator | .fieldSeparator | .typeOperator => []
  | .callArguments => [part .arguments]
  | .tableField | .furtherFields => [fieldParts]
  | .fieldName => [word .name nameWords]
  | .type | .postfixType | .simpleType | .typeReference | .typeOrPack | .tableType => [part .type]
  | .assertions | .furtherTypesOrPacks | .furtherMembers => several .type
  | .typeInstantiation | .typeArguments | .typeList => [part .types]
  | .typeListItem | .furtherListItems => [listParts]
  | .tableTypeField | .furtherTypeFields => [typeFieldParts]
  | .access => [word .kwRead [.kwWrite]]
  | .propertyName => [word .name [.kwRead, .kwWrite]]
  | .genericParameters | .genericParameterList => [part .generics]
  | .genericParameter => [part .generic]
  | .furtherGenericParameters => several .generic

/-- What a symbol hands to the node above it. Only some tokens are parts. -/
def symbolSlots : GrammarSymbol → List Slot
  | .token t => if t.isContent then [word t []] else []
  | .category c => c.hands

/-- What a production hands on: the part that it builds, or those of its symbols. -/
def productionSlots (p : Production Terminal Category Construct) : List Slot :=
  match p.construct.kind? with
  | some k => [part k]
  | none => p.body.flatMap symbolSlots

theorem hands_checked :
    (Category.all.all fun c => (productions c).all fun p =>
      Slot.covers c.hands (productionSlots p)) = true := by
  decide

/-! ## What constructs take -/

/-- What a statement takes that is not looked into, by the symbols that it starts with. -/
def statementSlots : List GrammarSymbol → List Slot
  | .category .assignmentTargets :: _ => several .expression ++ [part .expressions]
  | .category .suffixedExpression :: _ =>
    [part .expression, word .compound [], part .expression]
  | .token .kwDo :: _ => [part .block]
  | .token .kwWhile :: _ => [part .expression, part .block]
  | .token .kwRepeat :: _ => [part .block, part .expression]
  | .token .kwIf :: _ =>
    [part .expression, part .block, .many [.part .expression, .part .block]]
  | .token .kwFor :: .category .binding :: _ =>
    [part .binding, part .expression, part .expression, maybe .expression, part .block]
  | .token .kwFor :: _ => [part .bindings, part .expressions, part .block]
  | .token .kwBreak :: _ => []
  | .token .kwContinue :: _ => [word .kwContinue []]
  | _ => [functionParts]

/-- What the construct of a production takes. -/
def signature (p : Production Terminal Category Construct) : List Slot :=
  match p.construct with
  | .spliced => p.body.flatMap symbolSlots
  | .block => [.many [.part .statement, .part .returned]]
  | .statement => statementSlots p.body
  | .callStatement => [part .expression]
  | .localAssignment => [part .bindings, maybe .expressions]
  | .typeDeclaration => [.optional [.token .kwExport], word .kwType [], word .name [],
      maybe .generics, part .type]
  | .typeFunction => [.optional [.token .kwExport], word .kwType [], functionParts]
  | .returnStatement | .parenthesizedArguments => [maybe .expressions]
  | .bindingList => several .binding
  | .binding | .genericParameter | .genericPackParameter => [word .name [], maybe .type]
  | .expressionList => several .expression
  | .operatorChain => part .expression :: several .expression
  | .unaryOperation => [part .expression]
  | .typeAssertion => part .expression :: several .type
  | .literal => [.optional [.token .number]]
  | .string => [word .quoted []]
  | .interpolatedString => [word .interpolated []]
  | .table => [fieldParts]
  | .function => [functionParts]
  | .ifExpression => part .expression :: part .expression :: several .expression
  | .name => [word .name nameWords]
  | .parenthesized | .typeofType | .tableArguments | .stringArguments => [part .expression]
  | .fieldIndex => [part .expression, word .name []]
  | .keyIndex => [part .expression, part .expression]
  | .instantiation => [part .expression, part .types]
  | .call => [part .expression, part .arguments]
  | .methodCall => [part .expression, word .name [], maybe .types, part .arguments]
  | .typeInstantiation | .unionType => several .type
  | .optionalType | .variadicType => [part .type]
  | .nilType => []
  | .singletonType => [.optional [.token .quoted]]
  | .tableType => [typeFieldParts]
  | .parenthesizedType => [maybe .types]
  | .functionType => [maybe .generics, maybe .types, part .type]
  | .typeReference => [word .name [], .optional [.token .name], maybe .types]
  | .typeArguments => [.many [.part .type]]
  | .typeList => [listParts]
  | .genericPack => [word .name []]
  | .genericParameterList => several .generic

/-- A spliced node hands its parts on as they are; any other construct has a place for them. -/
theorem signatures_checked :
    (Category.all.all fun c => (productions c).all fun p =>
      p.construct == .spliced ||
        Slot.covers (signature p) (p.body.flatMap symbolSlots)) = true := by
  decide

namespace Tree

variable {t : Tree} {ts : List Tree} {ps own : List Part} {span : Option Span} {c : Category}
  {l : Construct}

theorem takes_of_partsOf
    (h : ∀ t ∈ ts, ∀ {ps span}, t.parts = .ok (ps, span) →
      Slot.Takes (symbolSlots t.symbol) (ps.map Part.form))
    (hparts : partsOf ts = .ok (own, span)) :
    Slot.Takes ((ts.map symbol).flatMap symbolSlots) (own.map Part.form) := by
  induction ts generalizing own span with
  | nil =>
    cases hparts
    exact .nil
  | cons t ts ih =>
    obtain ⟨first, s, others, s', ht, hts, rfl, -⟩ := partsOf_cons_eq_ok.1 hparts
    rw [List.map_cons, List.flatMap_cons, List.map_append]
    exact (h t List.mem_cons_self ht).append (ih (fun u hu => h u (List.mem_cons_of_mem _ hu)) hts)

/-- A well-formed tree hands up what its symbol says. -/
theorem WellFormed.takes (h : t.WellFormed) (hparts : t.parts = .ok (ps, span)) :
    Slot.Takes (symbolSlots t.symbol) (ps.map Part.form) := by
  induction h generalizing ps span with
  | leaf tok =>
    cases hparts
    rw [symbol, symbolSlots]
    split
    · exact Slot.takes_one (List.mem_singleton_self _)
    · exact .nil
  | @node c l ts hproduction _ ih =>
    obtain ⟨own, hown, hcontribute⟩ := parts_node_eq_ok.1 hparts
    have hcovers := List.all_eq_true.1 (List.all_eq_true.1 hands_checked c (Category.mem_all c)) _
      hproduction
    refine Slot.Takes.of_covers ?_ hcovers
    cases hl : l.kind? with
    | some k =>
      obtain ⟨p, rfl, hk, -⟩ := part_of_contribute hl hcontribute
      have htoken : k ≠ .token := by
        rintro rfl
        cases l <;> contradiction
      simp only [productionSlots, hl, List.map_singleton, Part.form_eq_part.2 ⟨hk, htoken⟩]
      exact Slot.takes_one (List.mem_singleton_self _)
    | none =>
      obtain rfl : l = .spliced := by cases l <;> first | rfl | contradiction
      rw [contribute_spliced] at hcontribute
      obtain rfl := Except.ok.inj hcontribute
      exact takes_of_partsOf (fun t ht _ _ => ih t ht) hown

/-- The children of a node hand up what its construct takes. -/
theorem WellFormed.takes_signature (h : (Tree.node c l ts).WellFormed)
    (hown : partsOf ts = .ok (own, span)) :
    Slot.Takes (signature ⟨l, ts.map symbol⟩) (own.map Part.form) := by
  have htakes := takes_of_partsOf (fun t ht _ _ => (h.children t ht).takes) hown
  have hcheck := List.all_eq_true.1 (List.all_eq_true.1 signatures_checked c (Category.mem_all c)) _
    h.production
  rw [Bool.or_eq_true, beq_iff_eq] at hcheck
  rcases hcheck with hspliced | hcovers
  · obtain rfl : l = .spliced := hspliced
    exact htakes
  · exact htakes.of_covers hcovers

/-- From what the children of a node hand up its construct is built, or the source is at fault. -/
theorem WellFormed.ofSource_of_contribute (h : (Tree.node c l ts).WellFormed)
    (hown : partsOf ts = .ok (own, span)) {fault : NodeFault}
    (hfault : contribute l own span = .error fault) : fault.OfSource :=
  h.ofSource (parts_node_eq_error.2 (.inr ⟨own, span, hown, hfault⟩))

end Tree

/-! ## String literals -/

theorem string_of_assemble {l : Construct} {s : Span} {own : List Part}
    {f : StringLiteral.Fault} (h : assemble l s own = .error (.badString f)) :
    l = .string ∧ ∃ t, own = [.token t] ∧ StringLiteral.decode t.text = .error f := by
  rcases fault_of_assemble h with hfault | ⟨-, _, -, hfault⟩ | ⟨rfl, t, f', rfl, hdecode, hfault⟩
  · cases hfault
  · cases hfault
  · obtain rfl := NodeFault.badString.inj hfault
    exact ⟨rfl, t, rfl, hdecode⟩

theorem strings_checked :
    (Category.all.all fun c => (productions c).all fun p =>
      p.construct != .string || c == .string && p.body == [.token .quoted]) = true := by
  decide

namespace Tree

/-- A string expression is one token. -/
theorem WellFormed.eq_string {c : Category} {ts : List Tree}
    (h : (Tree.node c .string ts).WellFormed) :
    c = .string ∧ ∃ t : Token, t.terminal = .quoted ∧ ts = [.leaf t] := by
  have hcheck := List.all_eq_true.1 (List.all_eq_true.1 strings_checked c (Category.mem_all c)) _
    h.production
  simp only [bne_self_eq_false, Bool.false_or, Bool.and_eq_true, beq_iff_eq] at hcheck
  obtain ⟨t, rfl, ht⟩ := List.map_eq_singleton_iff.1 hcheck.2
  cases t with
  | leaf tok => exact ⟨hcheck.1, tok, Symbol.token.inj ht, rfl⟩
  | node => contradiction

/-- A tree that is not built for a string literal has an expression that is this string. -/
theorem WellFormed.exists_string {t : Tree} (h : t.WellFormed) {f : StringLiteral.Fault}
    (hparts : t.parts = .error (.badString f)) :
    ∃ tok : Token, (Tree.node .string .string [.leaf tok]).Within t ∧
      StringLiteral.decode tok.text = .error f := by
  obtain ⟨c, l, ts, own, s, hwithin, -, hown, hp⟩ := h.exists_fault hparts
  obtain ⟨rfl, tok, rfl, hdecode⟩ := string_of_assemble hp
  obtain ⟨rfl, tok', hquoted, rfl⟩ := (h.within hwithin).eq_string
  obtain ⟨others, s', hnil, heq, -⟩ := partsOf_leaf_cons_eq_ok.1 hown
  cases hnil
  rw [hquoted] at heq
  cases heq
  exact ⟨tok, hwithin, hdecode⟩

end Tree

/-! ## Sources -/

variable {file : Text} {source : List Char}

/-- The character that no token starts with stands in the source. -/
theorem getElem?_of_unexpectedCharacter {char : Char} {p : Position}
    (h : parseTree source = .error (.unexpectedCharacter char p)) :
    source[p.offset]? = some char := by
  obtain ⟨stack, i, -, hstacked, hfails, -⟩ := exists_fails_of_parseTree h
  have hdrop := hfails.drop_position hstacked.in_source
  rw [SyntaxFault.position] at hdrop
  cases hfails with
  | character _ hbehind => rw [← List.head?_drop, hdrop, hbehind, List.drop_left, List.head?_cons]

/-- Whether the string literals that are expressions of a tree can be decoded. -/
def Tree.Decodes (tree : Tree) : Prop :=
  ∀ t : Token, (Tree.node .string .string [.leaf t]).Within tree →
    ∃ value, StringLiteral.decode t.text = .ok value

/-- A file with a name whose string literals can be decoded has a chunk or a problem. -/
theorem chunk_or_problem (hfile : file ≠ [])
    (hstrings : ∀ tree, parseTree source = .ok tree → tree.Decodes) :
    (∃ chunk, parse file source = .ok chunk) ∨
      ∃ problem, parse file source = .error (.problem problem) := by
  cases hparse : parse file source with
  | ok chunk => exact .inl ⟨chunk, rfl⟩
  | error failure =>
    cases failure with
    | problem problem => exact .inr ⟨problem, rfl⟩
    | unbuildable fault =>
      obtain ⟨f, rfl⟩ := badString_of_parse hfile hparse
      obtain ⟨tree, htree, hblock, -⟩ := block_of_parse hfile hparse
      have hparts := (Tree.parts_of_block_eq_error hblock).resolve_right nofun
      obtain ⟨t, hwithin, hdecode⟩ := (wellFormed_of_parseTree htree).exists_string hparts
      obtain ⟨value, hvalue⟩ := hstrings tree htree t hwithin
      rw [hdecode] at hvalue
      contradiction

/-- **Nothing but a bad string keeps a source from being a chunk or a problem**: at every node of
every tree of the grammar the parts that the children hand up are those that the construct takes,
and where no token starts the source has a character to be named. -/
theorem parse_total (hfile : file ≠ [])
    (hstrings : ∀ tree, parseTree source = .ok tree → tree.Decodes) :
    ((∃ chunk, parse file source = .ok chunk) ∨
        ∃ problem, parse file source = .error (.problem problem)) ∧
      (∀ tree : Tree, tree.WellFormed → ∀ c l ts, (Tree.node c l ts).Within tree →
        ∀ own span, Tree.partsOf ts = .ok (own, span) →
          Slot.Takes (signature ⟨l, ts.map Tree.symbol⟩) (own.map Part.form) ∧
            ∀ fault, contribute l own span = .error fault → fault.OfSource) ∧
      parseTree source ≠ .error .stuck ∧
      ∀ char p, parseTree source = .error (.unexpectedCharacter char p) →
        source[p.offset]? = some char := by
  refine ⟨chunk_or_problem hfile hstrings, fun tree htree c l ts hwithin own span hown => ?_,
    parseTree_ne_stuck source, fun char p => getElem?_of_unexpectedCharacter⟩
  have hnode := htree.within hwithin
  exact ⟨hnode.takes_signature hown, fun fault => hnode.ofSource_of_contribute hown⟩

/-- The string literals of a tree can be decoded if its quoted tokens can. -/
theorem Tree.decodes_of_tokens {tree : Tree} (h : tree.WellFormed)
    (hquoted : (tree.tokens.all fun t =>
      t.terminal != .quoted || (StringLiteral.decode t.text).toOption.isSome) = true) :
    tree.Decodes := by
  intro t ht
  obtain ⟨-, t', hterminal, htoken⟩ := (h.within ht).eq_string
  obtain rfl : t = t' := Tree.leaf.inj (List.singleton_inj.1 htoken)
  have hdecode := List.all_eq_true.1 hquoted t (ht.tokens_infix.subset (List.mem_singleton_self t))
  rw [hterminal, bne_self_eq_false, Bool.false_or] at hdecode
  cases hvalue : StringLiteral.decode t.text with
  | ok value => exact ⟨value, rfl⟩
  | error f =>
    rw [hvalue] at hdecode
    contradiction

/-- A source with string literals of both kinds. -/
def quotedSource : List Char :=
  "local a = require(script.Parent[\"b\\tc\"])
return a [[x]] .. a \"y\"
".toList

theorem quotedSource_total :
    ((∃ chunk, parse "m" quotedSource = .ok chunk) ∨
        ∃ problem, parse "m" quotedSource = .error (.problem problem)) ∧
      (∀ tree : Tree, tree.WellFormed → ∀ c l ts, (Tree.node c l ts).Within tree →
        ∀ own span, Tree.partsOf ts = .ok (own, span) →
          Slot.Takes (signature ⟨l, ts.map Tree.symbol⟩) (own.map Part.form) ∧
            ∀ fault, contribute l own span = .error fault → fault.OfSource) ∧
      parseTree quotedSource ≠ .error .stuck ∧
      ∀ char p, parseTree quotedSource = .error (.unexpectedCharacter char p) →
        quotedSource[p.offset]? = some char := by
  refine parse_total (by decide) fun tree htree => ?_
  have hrun : ((parseTree quotedSource).toOption.any fun tree => tree.tokens.all fun t =>
      t.terminal != .quoted || (StringLiteral.decode t.text).toOption.isSome) = true := by
    unfold quotedSource
    rw [String.toList_ofList]
    decide +kernel
  rw [htree] at hrun
  exact Tree.decodes_of_tokens (wellFormed_of_parseTree htree) hrun

end TypedLinks.Luau
