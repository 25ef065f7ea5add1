import TypedLinks.Proofs.Parsing.Faults
import TypedLinks.Proofs.Parsing.Tokens

/-!
# The machine never gets stuck

After every reduction there is a state to go on in, and the steps are enough for any run, also for
one that fails. So a source without a parse tree has a fault that its text shows: a token or a
character that cannot follow what was read, or its end.
-/

namespace TypedLinks.Luau

open Grammar TypedLinks.Luau.Configuration

/-! ## States after categories -/

namespace State

/-- The numbers of the states that are left by a category, as a set of bits. -/
def goers (c : Category) : Nat := (afterCategory c).foldl (fun bits q => bits ||| q.sources) 0

theorem exists_goto?_of_goers {q : State} {c : Category} (h : (goers c).testBit q.number = true) :
    ∃ q', q.goto? c = some q' := by
  rw [goers, testBit_foldl_or] at h
  obtain h | ⟨q', hmem, hfollows⟩ := h
  · simp at h
  · rw [← Option.isSome_iff_exists, goto?, List.find?_isSome]
    exact ⟨q', hmem, hfollows⟩

set_option maxRecDepth 100000 in
theorem first_items_checked :
    (allSymbols.all fun s => (entered s).all fun q => q.items.all fun i =>
      i.passed != 1 || i.category == .chunk ||
        q.sources &&& goers i.category == q.sources) = true := by
  decide

/-- Where the first symbol of a production is read, a tree of its category can be put. -/
theorem exists_goto?_of_item {q q' : State} {s : GrammarSymbol} (h : q.move? s = some q')
    {i : Item} (hi : i ∈ q'.items) (hpassed : i.passed = 1) (hchunk : i.category ≠ .chunk) :
    ∃ q'', q.goto? i.category = some q'' := by
  obtain ⟨hs, hfollows⟩ := move?_eq_some h
  have hcheck := List.all_eq_true.1 (List.all_eq_true.1 (List.all_eq_true.1 first_items_checked s
    (mem_allSymbols s)) q' hs) i hi
  simp only [hpassed, bne_self_eq_false, Bool.false_or, Bool.or_eq_true, beq_iff_eq, hchunk,
    false_or] at hcheck
  have hbit : (q'.sources &&& goers i.category).testBit q.number = true := by
    rw [hcheck]
    exact hfollows
  rw [Nat.testBit_and, Bool.and_eq_true] at hbit
  exact exists_goto?_of_goers hbit.2

set_option maxRecDepth 100000 in
theorem empty_reductions_checked :
    (all.all fun q => q.reductions.all fun r =>
      r.size != 0 || (goers r.head).testBit q.number) = true := by
  decide

/-- A reduction without trees can be made where it stands. -/
theorem exists_goto?_of_size_eq_zero {q : State} (hq : q ∈ all) {la : Option Terminal}
    {r : Reduction} (h : q.reduction? la = some r) (hsize : r.size = 0) :
    ∃ q', q.goto? r.head = some q' := by
  have hcheck := List.all_eq_true.1 (List.all_eq_true.1 empty_reductions_checked q hq) r
    (List.mem_of_find?_eq_some h)
  rw [hsize, bne_self_eq_false, Bool.false_or] at hcheck
  exact exists_goto?_of_goers hcheck

end State

/-- Behind trees that an item has passed, a tree of the category of the item can be put in their
place. -/
theorem Reads.exists_goto? {q q' : State} {i j : Place} {ts : List Tree} (h : Reads q i ts q' j)
    (hts : ts ≠ []) {item : Item} (hitem : item ∈ q'.items)
    (hpassed : item.passed = ts.length) (hchunk : item.category ≠ .chunk) :
    ∃ q'', q.goto? item.category = some q'' := by
  obtain ⟨t, ts, rfl⟩ := List.exists_cons_of_ne_nil hts
  obtain ⟨q₁, k, ht, hrest⟩ := h.uncons
  obtain ⟨-, hfirst⟩ := hrest.symbols_of_item (State.mem_all_of_move? ht.move) hitem (n := 1)
    (by rw [hpassed, List.length_cons, Nat.add_comm])
  exact State.exists_goto?_of_item ht.move (i := item.upTo 1) (hfirst Nat.one_pos) rfl hchunk

section Stack

variable {source : List Char} {stack : List (State × Tree)} {i : Place} {c : Configuration}
  {looked : Nat} {e : SyntaxFault}

/-- The trees of a stack were read one after the other from the start of the source. -/
theorem Stacked.reads (h : Stacked source stack i) :
    Reads .initial (.start source) (stack.reverse.map (·.2)) (top stack) i := by
  induction h with
  | nil => exact .nil _ _
  | cons _ read ih =>
    rw [List.reverse_cons, List.map_append]
    exact ih.append read

/-- After a reduction there is a state to go on in. -/
theorem Stacked.exists_goto? (h : Stacked source stack i) {la : Option Terminal} {r : Reduction}
    (hr : (top stack).reduction? la = some r) (hinner : r.head ≠ .chunk) :
    ∃ q, (top (stack.drop r.size)).goto? r.head = some q := by
  by_cases hzero : r.size = 0
  · rw [hzero]
    exact State.exists_goto?_of_size_eq_zero h.top_mem_all hr hzero
  · obtain ⟨item, hitem, hcategory, hpassed, -⟩ :=
      (State.production_of_reduction? h.top_mem_all hr).resolve_left fun hempty => hzero hempty.1
    obtain ⟨hle, j, hbelow, hreads⟩ := h.reduce hr
    have hlength : ((stack.take r.size).reverse.map (·.2)).length = r.size := by
      rw [List.length_map, List.length_reverse, List.length_take, Nat.min_eq_left hle]
    rw [← hcategory]
    refine hreads.exists_goto? ?_ hitem (by rw [hlength, hpassed]) (by rwa [hcategory])
    exact List.ne_nil_of_length_pos (by omega)

/-! ## Faults -/

/-- Why the machine cannot go on from a state at a place. -/
inductive Fails (q : State) (i : Place) : SyntaxFault → Prop where
  /-- A token starts here that is not looked for. -/
  | foreign {t : Token} {cs rest : List Char} (look : i.look = none)
      (behind : i.rest = i.gap ++ cs)
      (scan : scan (fun _ => true) (i.position.advance i.gap) cs = some (t, rest)) :
      Fails q i (.unexpectedToken t)
  /-- No token starts here. -/
  | character {char : Char} {cs : List Char} (look : i.look = none)
      (behind : i.rest = i.gap ++ char :: cs)
      (scan : scan (fun _ => true) (i.position.advance i.gap) (char :: cs) = none) :
      Fails q i (.unexpectedCharacter char (i.position.advance i.gap))
  /-- The token that is seen can neither be shifted nor reduced before. -/
  | token {t : Token} {p : Position} {rest : List Char} (look : i.look = some ⟨some t, p, rest⟩)
      (shift : q.shift? t.terminal = none) (reduction : q.reduction? (some t.terminal) = none) :
      Fails q i (.unexpectedToken t)
  /-- The source ends too early. -/
  | atEnd {p : Position} {rest : List Char} (look : i.look = some ⟨none, p, rest⟩)
      (reduction : q.reduction? none = none) : Fails q i .unexpectedEnd

theorem fails_of_unread (htop : top stack = i.scanner) (h : (unread stack i).step = .failed e) :
    Fails (top stack) i e := by
  have hlook : i.look = none := by
    cases hlook : i.look with
    | none => rfl
    | some s =>
      rw [step_unread htop hlook] at h
      contradiction
  have hbehind := i.gap_append_rest
  simp only [step, unread, look, skipTrivia_eq] at h
  split at h
  · contradiction
  · rename_i p char cs hskip
    obtain ⟨rfl, hdrop⟩ := Prod.mk.inj hskip
    rw [show i.rest.drop i.gap.length = char :: cs from hdrop] at hbehind
    split at h
    · contradiction
    · split at h
      · rename_i t rest hscan
        cases h
        exact .foreign hlook hbehind.symm hscan
      · rename_i hscan
        cases h
        exact .character hlook hbehind.symm hscan

theorem fails_of_seeing {s : Sight} (hlook : i.look = some s) (hstacked : Stacked source stack i)
    (h : (seeing stack s).step = .failed e) : Fails (top stack) i e := by
  cases hr : (top stack).reduction? s.terminal with
  | some r =>
    rw [step_seeing_reduce hstacked.top_mem_all hr] at h
    by_cases hhead : r.head = .chunk
    · rw [reduce_chunk hhead] at h
      contradiction
    · obtain ⟨q, hgoto⟩ := hstacked.exists_goto? hr hhead
      rw [reduce_goto hhead hgoto] at h
      contradiction
  | none =>
    obtain ⟨token, p, rest⟩ := s
    cases token with
    | none =>
      simp only [step, seeing, onEnd, state_eq_top] at h
      rw [show (top stack).reduction? none = none from hr] at h
      cases h
      exact .atEnd hlook hr
    | some t =>
      cases hshift : (top stack).shift? t.terminal with
      | some q =>
        rw [step_seeing_shift rfl hshift] at h
        contradiction
      | none =>
        simp only [step, seeing, onToken, state_eq_top, hshift] at h
        rw [show (top stack).reduction? (some t.terminal) = none from hr] at h
        cases h
        exact .token hlook hshift hr

theorem Configuration.Stands.fails (h : Stands c stack i looked) (hstacked : Stacked source stack i)
    (hstep : c.step = .failed e) : Fails (top stack) i e := by
  cases h with
  | unread htop => exact fails_of_unread htop hstep
  | seeing hlook => exact fails_of_seeing hlook hstacked hstep

/-! ## Enough steps -/

theorem blocks_apart_checked :
    ((afterCategory .block).all fun q =>
      (afterCategory .block).all fun q' => !q'.follows q) = true := by
  decide

/-- The symbols of a stack weigh nothing, but for a block on top: no block stands on another one. -/
theorem Stacked.weight_le (h : Stacked source stack i) :
    (stack.map fun f => symbolWeight f.2.symbol).sum ≤
      if top stack ∈ afterCategory .block then 1 else 0 := by
  induction h with
  | nil =>
    simp only [List.map_nil, List.sum_nil]
    split <;> omega
  | @cons stack i j t q below read ih =>
    have hmove := read.move
    rw [List.map_cons, List.sum_cons]
    change _ ≤ if q ∈ afterCategory .block then (1 : Int) else 0
    have hbelow : (stack.map fun f => symbolWeight f.2.symbol).sum ≤ 1 := by
      split at ih <;> omega
    cases hsymbol : t.symbol with
    | token x =>
      have hweight : symbolWeight (.token x) = -60 := rfl
      rw [hweight]
      split <;> omega
    | category c =>
      rw [hsymbol] at hmove
      by_cases hblock : c = .block
      · subst hblock
        have hq := (State.move?_eq_some hmove).1
        rw [show (entered (.category .block)) = afterCategory .block from rfl] at hq
        have hnot : top stack ∉ afterCategory .block := by
          intro htop
          have hcheck := List.all_eq_true.1 (List.all_eq_true.1 blocks_apart_checked _ htop) q hq
          rw [(State.move?_eq_some hmove).2] at hcheck
          contradiction
        rw [if_neg hnot] at ih
        have hweight : symbolWeight (.category .block) = 1 := rfl
        rw [if_pos hq, hweight]
        omega
      · have hchunk : c ≠ .chunk := by
          rintro rfl
          contradiction
        have hheight : c.height ≤ 8 := by cases c <;> decide
        have hweight : symbolWeight (.category c) = c.height - 60 := by
          cases c <;> first | rfl | exact absurd rfl hblock | exact absurd rfl hchunk
        rw [hweight]
        split <;> omega

/-- The steps in which a stack was built. -/
def stackSteps (stack : List (State × Tree)) : Nat := Tree.stepsOf (stack.map (·.2))

theorem Tree.stepsOf_append (ts us : List Tree) :
    Tree.stepsOf (ts ++ us) = Tree.stepsOf ts + Tree.stepsOf us := by
  induction ts with
  | nil => simp [Tree.stepsOf]
  | cons t ts ih => rw [List.cons_append, Tree.stepsOf, Tree.stepsOf, ih, Nat.add_assoc]

theorem Tree.stepsOf_reverse (ts : List Tree) : Tree.stepsOf ts.reverse = Tree.stepsOf ts := by
  induction ts with
  | nil => rfl
  | cons t ts ih =>
    rw [List.reverse_cons, Tree.stepsOf_append, ih]
    simp only [Tree.stepsOf]
    omega

/-- A stack is built in few steps for the length of the source. -/
theorem Stacked.steps_le (h : Stacked source stack i) :
    stackSteps stack ≤ 62 * source.length + 1 := by
  have hreads := h.reads
  have hsteps := Tree.stepsOf_le (hreads.wellFormed State.initial_mem_all)
  have htokens := hreads.length_tokens
  have hweight := h.weight_le
  have hweight' : (stack.map fun f => symbolWeight f.2.symbol).sum ≤ 1 := by
    split at hweight <;> omega
  have hsum : ((stack.reverse.map (·.2)).map fun t => symbolWeight t.symbol).sum =
      (stack.map fun f => symbolWeight f.2.symbol).sum := by
    rw [List.map_map, List.map_reverse, List.sum_reverse]
    rfl
  rw [hsum, List.map_reverse, Tree.stepsOf_reverse] at hsteps
  rw [List.map_reverse] at htokens
  rw [stackSteps]
  simp only [Place.start] at htokens
  omega

/-- The number of steps in which a configuration is reached. -/
def Configuration.spent (c : Configuration) : Nat :=
  stackSteps c.stack + if c.lookahead = .unread then 0 else 1

theorem Configuration.spent_unread (stack : List (State × Tree)) (i : Place) :
    (unread stack i).spent = stackSteps stack := rfl

theorem Configuration.spent_seeing (stack : List (State × Tree)) (s : Sight) :
    (seeing stack s).spent = stackSteps stack + 1 := by
  rw [Configuration.spent, if_neg lookahead_seeing_ne_unread]
  rfl

/-- No step of the machine is undone. -/
theorem Moves.spent {c' : Configuration} (h : Moves stack i c (.next c')) :
    c'.spent = c.spent + 1 := by
  cases h with
  | look => rw [spent_unread, spent_seeing]
  | shift =>
    rw [spent_unread, spent_seeing, stackSteps, stackSteps, List.map_cons, Tree.stepsOf, Tree.steps]
    omega
  | @reduce s r q =>
    have hstack : stackSteps stack = Tree.stepsOf ((stack.take r.size).map (·.2)) +
        Tree.stepsOf ((stack.drop r.size).map (·.2)) := by
      rw [← Tree.stepsOf_append, ← List.map_append, List.take_append_drop, stackSteps]
    rw [spent_seeing, spent_seeing, hstack, stackSteps, List.map_cons, Tree.stepsOf, Tree.steps,
      List.map_reverse, Tree.stepsOf_reverse]
    omega

theorem Configuration.Stands.spent_le (h : Stands c stack i looked)
    (hstacked : Stacked source stack i) : c.spent ≤ 62 * source.length + 2 := by
  have hsteps := hstacked.steps_le
  cases h with
  | unread =>
    rw [spent_unread]
    omega
  | seeing =>
    rw [spent_seeing]
    omega

/-- A run that fails, and is given enough steps, has read some trees behind which the machine cannot
go on. The tokens that it read are those of the trees, and then the one that cannot follow if that
was looked for. -/
theorem Stacked.exists_fails (h : Stacked source stack i) (hstands : Stands c stack i looked)
    {fuel : Nat} (hfuel : 62 * source.length + 2 < c.spent + fuel) (hrun : c.run fuel = .error e) :
    ∃ stack' i' seen, Stacked source stack' i' ∧ Fails (top stack') i' e ∧
      c.held ++ c.tokensRead fuel = Tree.tokensOf (stack'.reverse.map (·.2)) ++ seen ∧
      ∀ t ∈ seen, e = .unexpectedToken t := by
  induction fuel generalizing c stack i looked with
  | zero =>
    have := hstands.spent_le h
    omega
  | succ fuel ih =>
    have hmoves := hstands.moves h.top_mem_all
    rw [Configuration.run] at hrun
    rw [Configuration.tokensRead]
    cases hstep : c.step with
    | next c' =>
      rw [hstep] at hrun hmoves
      obtain ⟨stack', i', looked', h', hstands'⟩ := h.next hmoves
      obtain ⟨stack'', i'', seen, h'', hfails, hheld, hseen⟩ :=
        ih h' hstands' (by rw [hmoves.spent]; omega) hrun
      refine ⟨stack'', i'', seen, h'', hfails, ?_, hseen⟩
      rw [← hheld, hmoves.held, List.append_assoc]
    | done t =>
      rw [hstep] at hrun
      contradiction
    | failed e' =>
      rw [hstep] at hrun
      cases hrun
      have hfails := hstands.fails h hstep
      refine ⟨stack, i, c.pending, h, hfails, ?_, fun t ht => ?_⟩
      · cases hstands <;> simp [Configuration.held, unread, seeing]
      · cases hstands with
        | unread => contradiction
        | @seeing _ _ s =>
          rw [pending_seeing, Option.mem_toList] at ht
          rcases fault_of_seeing hstep with ⟨t', ht', rfl⟩ | ⟨hnone, -⟩ | rfl
          · rw [ht'] at ht
            rw [Option.some.inj ht]
          · rw [hnone] at ht
            contradiction
          · cases hfails

/-- A source without a parse tree starts with some trees behind which the machine cannot go on. -/
theorem exists_fails_of_parseTree (h : parseTree source = .error e) :
    ∃ stack i seen, Stacked source stack i ∧ Fails (top stack) i e ∧
      tokensRead source = Tree.tokensOf (stack.reverse.map (·.2)) ++ seen ∧
      ∀ t ∈ seen, e = .unexpectedToken t := by
  refine Stacked.nil.exists_fails (Stands.unread rfl) ?_ h
  unfold stepBound
  omega

/-- The machine has a fault of the source to report whenever it fails. -/
theorem parseTree_ne_stuck (source : List Char) : parseTree source ≠ .error .stuck := by
  intro h
  obtain ⟨stack, i, seen, -, hfails, -⟩ := exists_fails_of_parseTree h
  exact nomatch hfails

end Stack

end TypedLinks.Luau
