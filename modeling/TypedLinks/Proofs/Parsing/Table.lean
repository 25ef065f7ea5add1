import Mathlib.Data.List.Chain
import TypedLinks.Luau.Machine

/-!
# The table of the automaton

What holds of every state of the parsing automaton. The facts about single states are checked on the
table as it stands; the rest of the theory uses them only through the lemmas of this file:

* an item of a state names the symbol by which the state is entered, and the states before it hold
  the item with one symbol less passed (`State.item_of_move?`);
* a reduction fits a production of its category (`State.production_of_reduction?`).
-/

namespace TypedLinks.Luau

open Grammar

/-- A symbol of the grammar of Luau. -/
abbrev GrammarSymbol := Grammar.Symbol Terminal Category

/-- Every category. -/
def Category.all : List Category :=
  [.chunk, .block, .statement, .lastStatement, .continueStatement, .assignmentTargets,
    .elseifClause, .elseClause, .bindingList, .binding, .attribute, .attributeEntry,
    .functionName, .functionBody, .parameterList, .variadicParameter, .expressionList,
    .expression, .binaryOperator, .unaryExpression, .unaryOperator, .typeAssertion,
    .simpleExpression, .elseifExpression, .literal, .string, .suffixedExpression,
    .primaryExpression, .nameExpression, .typeInstantiation, .callArguments, .tableConstructor,
    .tableField, .fieldName, .fieldSeparator, .type, .typeOperator, .postfixType, .simpleType,
    .typeReference, .typeArguments, .typeList, .typeListItem, .typeOrPack, .tableType,
    .tableTypeField, .access, .propertyName, .genericParameters, .genericParameterList,
    .genericParameter, .statements, .furtherTargets, .elseifClauses, .furtherBindings,
    .attributes, .furtherAttributeEntries, .nameSuffixes, .furtherExpressions, .operations,
    .assertions, .elseifExpressions, .furtherTypesOrPacks, .furtherFields, .furtherMembers,
    .furtherListItems, .furtherTypeFields, .furtherGenericParameters]

theorem Category.mem_all (c : Category) : c ∈ all := by cases c <;> decide

/-- Every symbol of the grammar. -/
def allSymbols : List GrammarSymbol := Terminal.all.map .token ++ Category.all.map .category

theorem mem_allSymbols (s : GrammarSymbol) : s ∈ allSymbols := by
  rw [allSymbols, List.mem_append]
  cases s with
  | token t => exact .inl (List.mem_map_of_mem (Terminal.mem_all t))
  | category c => exact .inr (List.mem_map_of_mem (Category.mem_all c))

/-! ## Items -/

namespace Item

/-- The symbols of the production that an item stands in. -/
def body (i : Item) : List GrammarSymbol :=
  (((productions i.category)[i.alternative]?).map (·.body)).getD []

/-- The item with another number of symbols passed. -/
def upTo (i : Item) (n : Nat) : Item := { i with passed := n }

@[simp] theorem body_upTo (i : Item) (n : Nat) : (i.upTo n).body = i.body := rfl

@[simp] theorem passed_upTo (i : Item) (n : Nat) : (i.upTo n).passed = n := rfl

end Item

/-! ## States -/

/-- The states entered by a symbol. -/
def entered : GrammarSymbol → List State
  | .token t => afterToken t
  | .category c => afterCategory c

namespace State

/-- The state after a symbol. -/
def move? (q : State) : GrammarSymbol → Option State
  | .token t => q.shift? t
  | .category c => q.goto? c

/-- Every state. -/
def all : List State := .initial :: allSymbols.flatMap entered

theorem initial_mem_all : initial ∈ all := List.mem_cons_self

theorem mem_all_of_mem_entered {q : State} {s : GrammarSymbol} (h : q ∈ entered s) : q ∈ all :=
  List.mem_cons_of_mem _ (List.mem_flatMap.2 ⟨s, mem_allSymbols s, h⟩)

theorem move?_eq_find? (q : State) (s : GrammarSymbol) :
    q.move? s = (entered s).find? (·.follows q) := by
  cases s <;> rfl

theorem move?_eq_some {q q' : State} {s : GrammarSymbol} (h : q.move? s = some q') :
    q' ∈ entered s ∧ q'.follows q = true := by
  rw [move?_eq_find?] at h
  exact ⟨List.mem_of_find?_eq_some h, by simpa using List.find?_some h⟩

theorem mem_afterToken {q q' : State} {t : Terminal} (h : q.shift? t = some q') :
    q' ∈ afterToken t :=
  (move?_eq_some (s := .token t) h).1

theorem mem_all_of_move? {q q' : State} {s : GrammarSymbol} (h : q.move? s = some q') :
    q' ∈ all :=
  mem_all_of_mem_entered (move?_eq_some h).1

set_option maxRecDepth 100000 in
theorem numbers_increase_checked : (all.map number).IsChain (· < ·) := by
  decide

/-- States are told apart by their numbers. -/
theorem eq_of_number_eq {q q' : State} (hq : q ∈ all) (hq' : q' ∈ all)
    (h : q.number = q'.number) : q = q' := by
  have hp := List.pairwise_map.1 (List.isChain_iff_pairwise.1 numbers_increase_checked)
  obtain ⟨i, hi, rfl⟩ := List.mem_iff_getElem.1 hq
  obtain ⟨j, hj, rfl⟩ := List.mem_iff_getElem.1 hq'
  rw [List.pairwise_iff_getElem] at hp
  rcases Nat.lt_trichotomy i j with hij | rfl | hij
  · have := hp i j hi hj hij
    omega
  · rfl
  · have := hp j i hj hi hij
    omega

/-! ## Items of a state -/

/-- The numbers of the states that are entered by a symbol and hold an item, as a set of bits. -/
def holders (i : Item) (s : GrammarSymbol) : Nat :=
  ((entered s).filter (·.items.contains i)).foldl (fun bits q => bits ||| 1 <<< q.number) 0

/-- Whether an item may stand in a state that is entered by a symbol: the symbol is the last one
passed, and the states before hold the item as it was before that symbol. -/
def admits (s : GrammarSymbol) (q : State) (i : Item) : Bool :=
  match i.passed with
  | 0 => false
  | 1 => i.body[0]? = some s
  | k + 2 =>
    i.body[k + 1]? = some s &&
      i.body[k]?.any fun previous =>
        q.sources &&& holders (i.upTo (k + 1)) previous = q.sources

set_option maxRecDepth 100000 in
theorem items_checked :
    (allSymbols.all fun s => (entered s).all fun q => q.items.all (q.admits s)) = true := by
  decide +kernel

theorem testBit_foldl_or (f : State → Nat) (qs : List State) (bits n : Nat) :
    (qs.foldl (fun bits q => bits ||| f q) bits).testBit n = true ↔
      bits.testBit n = true ∨ ∃ q ∈ qs, (f q).testBit n = true := by
  induction qs generalizing bits with
  | nil => simp
  | cons q qs ih =>
    rw [List.foldl_cons, ih, Nat.testBit_or, Bool.or_eq_true]
    simp only [List.exists_mem_cons_iff, or_assoc]

theorem mem_items_of_holders {q : State} (hq : q ∈ all) {i : Item} {s : GrammarSymbol}
    (h : (holders i s).testBit q.number = true) : q ∈ entered s ∧ i ∈ q.items := by
  rw [holders, testBit_foldl_or] at h
  simp only [Nat.zero_testBit, Bool.false_eq_true, false_or, List.mem_filter,
    List.contains_iff_mem, Nat.one_shiftLeft, Nat.testBit_two_pow, decide_eq_true_eq] at h
  obtain ⟨q', ⟨hs, hi⟩, hn⟩ := h
  obtain rfl := eq_of_number_eq (mem_all_of_mem_entered hs) hq hn
  exact ⟨hs, hi⟩

/-- An item of a state ends with the symbol that leads there, and the state before that holds the
item with one symbol less passed, unless that would be none. -/
theorem item_of_move? {q q' : State} {s : GrammarSymbol} (hq : q ∈ all)
    (h : q.move? s = some q') {i : Item} (hi : i ∈ q'.items) :
    ∃ k, i.passed = k + 1 ∧ i.body[k]? = some s ∧ (0 < k → i.upTo k ∈ q.items) := by
  obtain ⟨hs, hfollows⟩ := move?_eq_some h
  have hadmits := List.all_eq_true.1 (List.all_eq_true.1 (List.all_eq_true.1 items_checked s
    (mem_allSymbols s)) q' hs) i hi
  unfold admits at hadmits
  split at hadmits
  · contradiction
  · rename_i hpassed
    exact ⟨0, hpassed, of_decide_eq_true hadmits, fun h => absurd h (Nat.lt_irrefl 0)⟩
  · rename_i k hpassed
    rw [Bool.and_eq_true, decide_eq_true_eq] at hadmits
    obtain ⟨hbody, hbefore⟩ := hadmits
    rw [Option.any_eq_true] at hbefore
    obtain ⟨previous, -, hsources⟩ := hbefore
    refine ⟨k + 1, hpassed, hbody, fun _ => ?_⟩
    have hbit : (q'.sources &&& holders (i.upTo (k + 1)) previous).testBit q.number = true := by
      rw [of_decide_eq_true hsources]
      exact hfollows
    rw [Nat.testBit_and, Bool.and_eq_true] at hbit
    exact (mem_items_of_holders hq hbit.2).2

/-! ## Reductions -/

/-- Whether a reduction of a state fits a production: one with an empty body, or one that an item of
the state has passed. -/
def reduces (q : State) (r : Reduction) : Bool :=
  if r.size = 0 then
    (productions r.head).any fun p => p.construct = r.construct && p.body.isEmpty
  else
    q.items.any fun i => i.category = r.head && i.passed = r.size && i.body.length = r.size &&
      ((productions i.category)[i.alternative]?).any (·.construct = r.construct)

/-- The numbers of the states in which a token can be shifted, as a set of bits. -/
def shifters (t : Terminal) : Nat := (afterToken t).foldl (fun bits q => bits ||| q.sources) 0

set_option maxRecDepth 100000 in
theorem reductions_checked :
    (all.all fun q => q.reductions.all fun r => q.reduces r &&
      (r.head != .chunk || (q.sources = 1 && r = ⟨.chunk, .spliced, 1, 1⟩)) &&
      Terminal.all.all fun t => !((shifters t).testBit q.number && r.allows (some t))) = true := by
  decide +kernel

/-- A reduction fits a production, makes a chunk of one tree in one state only, and is not allowed
before a token that the state shifts. -/
theorem checked_of_reduction? {q : State} (hq : q ∈ all) {la : Option Terminal} {r : Reduction}
    (h : q.reduction? la = some r) :
    q.reduces r = true ∧ (r.head = .chunk → q.sources = 1 ∧ r = ⟨.chunk, .spliced, 1, 1⟩) ∧
      ∀ t, la = some t → (shifters t).testBit q.number = false := by
  have hr := List.all_eq_true.1 (List.all_eq_true.1 reductions_checked q hq) r
    (List.mem_of_find?_eq_some h)
  obtain ⟨hr, hshift⟩ := Bool.and_eq_true_iff.1 hr
  obtain ⟨hfits, hchunk⟩ := Bool.and_eq_true_iff.1 hr
  refine ⟨hfits, fun hhead => ?_, fun t hla => ?_⟩
  · rwa [hhead, bne_self_eq_false, Bool.false_or, Bool.and_eq_true, decide_eq_true_eq,
      decide_eq_true_eq] at hchunk
  · have ht := List.all_eq_true.1 hshift t (Terminal.mem_all t)
    have hallows : r.allows (some t) = true := by simpa [hla] using List.find?_some h
    rwa [hallows, Bool.and_true, Bool.not_eq_true'] at ht

/-- A reduction is by a production: an empty one, or one that the state holds an item at the end
of. -/
theorem production_of_reduction? {q : State} (hq : q ∈ all) {la : Option Terminal} {r : Reduction}
    (h : q.reduction? la = some r) :
    (r.size = 0 ∧ ⟨r.construct, []⟩ ∈ productions r.head) ∨
      ∃ i ∈ q.items, i.category = r.head ∧ i.passed = r.size ∧ i.body.length = r.size ∧
        ⟨r.construct, i.body⟩ ∈ productions r.head := by
  obtain ⟨hr, -, -⟩ := checked_of_reduction? hq h
  unfold reduces at hr
  split at hr
  · rename_i hsize
    obtain ⟨p, hp, hfit⟩ := List.any_eq_true.1 hr
    rw [Bool.and_eq_true, decide_eq_true_eq, List.isEmpty_iff] at hfit
    obtain ⟨hconstruct, hbody⟩ := hfit
    refine .inl ⟨hsize, ?_⟩
    rwa [← hconstruct, ← hbody]
  · obtain ⟨i, hi, hfit⟩ := List.any_eq_true.1 hr
    simp only [Bool.and_eq_true, decide_eq_true_eq] at hfit
    obtain ⟨⟨⟨hhead, hpassed⟩, hlength⟩, hany⟩ := hfit
    refine .inr ⟨i, hi, hhead, hpassed, hlength, ?_⟩
    rw [Option.any_eq_true] at hany
    obtain ⟨p, hp, hconstruct⟩ := hany
    have hbody : i.body = p.body := by rw [Item.body, hp]; rfl
    rw [← hhead, ← of_decide_eq_true hconstruct, hbody]
    exact List.mem_of_getElem? hp

/-- A state that reduces before a token does not shift it. -/
theorem shift?_eq_none_of_reduction? {q : State} (hq : q ∈ all) {t : Terminal} {r : Reduction}
    (h : q.reduction? (some t) = some r) : q.shift? t = none := by
  obtain ⟨-, -, hshift⟩ := checked_of_reduction? hq h
  cases hs : q.shift? t with
  | none => rfl
  | some q' =>
    obtain ⟨hmem, hfollows⟩ := move?_eq_some (s := .token t) hs
    have hbit : (shifters t).testBit q.number = true :=
      (testBit_foldl_or sources _ 0 _).2 (.inr ⟨q', hmem, hfollows⟩)
    rw [hshift t rfl] at hbit
    contradiction

/-- A chunk is reduced from one tree at the end of the source, and only the initial state may stand
before that. -/
theorem chunk_of_reduction? {q : State} (hq : q ∈ all) {la : Option Terminal} {r : Reduction}
    (h : q.reduction? la = some r) (hhead : r.head = .chunk) :
    la = none ∧ r.construct = .spliced ∧ r.size = 1 ∧ q.sources = 1 := by
  obtain ⟨hsources, hr⟩ := (checked_of_reduction? hq h).2.1 hhead
  have hallows : r.allows la = true := by simpa using List.find?_some h
  rw [hr] at hallows ⊢
  refine ⟨?_, rfl, rfl, hsources⟩
  cases la with
  | none => rfl
  | some t =>
    simp [Reduction.allows, lookaheadBit, Nat.testBit_one_eq_true_iff_self_eq_zero] at hallows

theorem eq_initial_of_sources {q q' : State} (hq : q ∈ all) {s : GrammarSymbol}
    (h : q.move? s = some q') (hsources : q'.sources = 1) : q = initial := by
  have hbit : q'.sources.testBit q.number = true := (move?_eq_some h).2
  rw [hsources, Nat.testBit_one_eq_true_iff_self_eq_zero] at hbit
  exact eq_of_number_eq hq initial_mem_all hbit

/-- The initial state is never entered. -/
theorem move?_ne_initial (q : State) (s : GrammarSymbol) : q.move? s ≠ some initial := by
  intro h
  have hp := List.pairwise_map.1 (List.isChain_iff_pairwise.1 numbers_increase_checked)
  rw [all, List.pairwise_cons] at hp
  exact Nat.lt_irrefl _
    (hp.1 initial (List.mem_flatMap.2 ⟨s, mem_allSymbols s, (move?_eq_some h).1⟩))

end State

end TypedLinks.Luau
