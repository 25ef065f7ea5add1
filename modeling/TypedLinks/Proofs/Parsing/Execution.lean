import TypedLinks.Proofs.Parsing.Reading

/-!
# Runs of the parsing machine

The machine and the relation `Reads` agree: whatever is read can be reached by the machine in a
number of steps that the trees determine (`Reads.leads`), and whatever the machine has on its stack
has been read (`Stacked`). So a source has a parse tree exactly if a tree is read from its start to
its end that an accepting reduction applies to.
-/

namespace TypedLinks.Luau

open Grammar

/-! ## Configurations at a place -/

namespace Configuration

variable {stack : List (State × Tree)} {i : Place} {s : Sight}

/-- The state on top of a stack. -/
def top : List (State × Tree) → State
  | [] => .initial
  | (q, _) :: _ => q

/-- A place at which the next token was not read yet. -/
def unread (stack : List (State × Tree)) (i : Place) : Configuration :=
  ⟨stack, .unread, i.position, i.rest⟩

/-- A configuration in which the next token was read. -/
def seeing (stack : List (State × Tree)) (s : Sight) : Configuration :=
  ⟨stack, match s.token with
    | some t => .token t
    | none => .atEnd, s.position, s.rest⟩

theorem state_eq_top (c : Configuration) : c.state = top c.stack := rfl

theorem step_unread (htop : top stack = i.scanner) (h : i.look = some s) :
    (unread stack i).step = .next (seeing stack s) := by
  unfold Place.look at h
  rcases hskip : skipTrivia 0 i.position i.rest with ⟨p, _ | ⟨c, cs⟩⟩
  · rw [hskip] at h
    cases h
    simp only [step, unread, look, hskip]
    rfl
  · rw [hskip] at h
    obtain ⟨⟨t, rest⟩, hscan, rfl⟩ := Option.map_eq_some_iff.1 h
    simp only [step, unread, look, state_eq_top, htop, hskip, hscan]
    rfl

theorem step_unread_of_look_eq_none (htop : top stack = i.scanner) (h : i.look = none) :
    ∃ e, (unread stack i).step = .failed e := by
  unfold Place.look at h
  rcases hskip : skipTrivia 0 i.position i.rest with ⟨p, _ | ⟨c, cs⟩⟩
  · rw [hskip] at h
    contradiction
  · rw [hskip] at h
    have hscan : scan i.scanner.accepts p (c :: cs) = none := Option.map_eq_none_iff.1 h
    simp only [step, unread, look, state_eq_top, htop, hskip, hscan]
    split <;> exact ⟨_, rfl⟩

theorem step_seeing_shift {t : Token} {q : State} (ht : s.token = some t)
    (h : (top stack).shift? t.terminal = some q) :
    (seeing stack s).step =
      .next (unread ((q, .leaf t) :: stack) ⟨q, s.position, s.rest⟩) := by
  have hstate : (seeing stack s).state.shift? t.terminal = some q := h
  simp only [step, seeing, ht, onToken] at hstate ⊢
  rw [hstate]
  rfl

theorem step_seeing_reduce {r : Reduction} (hq : top stack ∈ State.all)
    (h : (top stack).reduction? s.terminal = some r) :
    (seeing stack s).step = (seeing stack s).reduce r := by
  cases ht : s.token with
  | none =>
    rw [Sight.terminal, ht] at h
    have hstate : (seeing stack s).state.reduction? none = some r := h
    simp only [step, seeing, ht, onEnd] at hstate ⊢
    rw [hstate]
  | some t =>
    rw [Sight.terminal, ht] at h
    have hshift : (seeing stack s).state.shift? t.terminal = none :=
      State.shift?_eq_none_of_reduction? hq h
    have hstate : (seeing stack s).state.reduction? (some t.terminal) = some r := h
    simp only [step, seeing, ht, onToken] at hstate hshift ⊢
    rw [hshift, hstate]

theorem step_seeing_stuck (hreduce : (top stack).reduction? s.terminal = none)
    (hshift : ∀ t, s.token = some t → (top stack).shift? t.terminal = none) :
    ∃ e, (seeing stack s).step = .failed e := by
  cases ht : s.token with
  | none =>
    rw [Sight.terminal, ht] at hreduce
    have hstate : (seeing stack s).state.reduction? none = none := hreduce
    simp only [step, seeing, ht, onEnd] at hstate ⊢
    rw [hstate]
    exact ⟨_, rfl⟩
  | some t =>
    rw [Sight.terminal, ht] at hreduce
    have hshift : (seeing stack s).state.shift? t.terminal = none := hshift t ht
    have hstate : (seeing stack s).state.reduction? (some t.terminal) = none := hreduce
    simp only [step, seeing, ht, onToken] at hstate hshift ⊢
    rw [hshift, hstate]
    exact ⟨_, rfl⟩

theorem reduce_goto {r : Reduction} {q : State} (hinner : r.head ≠ .chunk)
    (h : (top (stack.drop r.size)).goto? r.head = some q) :
    (seeing stack s).reduce r = .next (seeing
      ((q, .node r.head r.construct ((stack.take r.size).reverse.map (·.2))) ::
        stack.drop r.size) s) := by
  have hstate : ({ seeing stack s with stack := stack.drop r.size } : Configuration).state.goto?
      r.head = some q := h
  simp only [reduce, seeing, hinner, if_false] at hstate ⊢
  rw [hstate]

theorem reduce_chunk {r : Reduction} (hhead : r.head = .chunk) :
    (seeing stack s).reduce r =
      .done (.node r.head r.construct ((stack.take r.size).reverse.map (·.2))) := by
  simp only [reduce, hhead, if_true, seeing]

theorem reduce_stuck {r : Reduction} (hinner : r.head ≠ .chunk)
    (h : (top (stack.drop r.size)).goto? r.head = none) :
    (seeing stack s).reduce r = .failed .stuck := by
  have hstate : ({ seeing stack s with stack := stack.drop r.size } : Configuration).state.goto?
      r.head = none := h
  simp only [reduce, seeing, hinner, if_false] at hstate ⊢
  rw [hstate]

/-- Whether the machine stands at a place with a stack; `looked` is 1 if it has already read the
next token there, else 0. -/
inductive Stands : Configuration → List (State × Tree) → Place → Nat → Prop where
  | unread {stack : List (State × Tree)} {i : Place} (htop : top stack = i.scanner) :
      Stands (.unread stack i) stack i 0
  | seeing {stack : List (State × Tree)} {i : Place} {s : Sight} (hlook : i.look = some s) :
      Stands (.seeing stack s) stack i 1

/-- The first configuration becomes the second in a number of steps. -/
def Leads (n : Nat) (c c' : Configuration) : Prop := ∀ fuel, run (fuel + n) c = run fuel c'

theorem Leads.refl (c : Configuration) : Leads 0 c c := fun _ => rfl

theorem Leads.trans {n m : Nat} {c c' c'' : Configuration} (h : Leads n c c')
    (h' : Leads m c' c'') : Leads (n + m) c c'' := by
  intro fuel
  rw [show fuel + (n + m) = fuel + m + n by omega, h, h']

theorem Leads.of_step {c c' : Configuration} (h : c.step = .next c') : Leads 1 c c' := by
  intro fuel
  rw [run, h]

/-- Where the machine stands it may read the next token. -/
theorem Stands.leads_seeing {c : Configuration} {looked : Nat} (h : Stands c stack i looked)
    (hlook : i.look = some s) : ∃ n, Leads n c (.seeing stack s) ∧ n + looked = 1 := by
  cases h with
  | unread htop => exact ⟨1, .of_step (step_unread htop hlook), rfl⟩
  | seeing hlook' =>
    obtain rfl := Option.some.inj (hlook'.symm.trans hlook)
    exact ⟨0, .refl _, rfl⟩

end Configuration

open TypedLinks.Luau.Configuration

/-! ## What is read is reached -/

namespace Tree

mutual

/-- The number of steps in which the machine reads a tree: two for a token, one for a node. -/
def steps : Tree → Nat
  | leaf _ => 2
  | node _ _ children => 1 + stepsOf children

/-- The number of steps in which the machine reads several trees. -/
def stepsOf : List Tree → Nat
  | [] => 0
  | t :: ts => t.steps + stepsOf ts

end

end Tree

/-- Reading trees is a run of the machine that puts them on the stack. -/
theorem Reads.leads {q q' : State} {i j : Place} {ts : List Tree} (h : Reads q i ts q' j)
    (hq : q ∈ State.all) {c : Configuration} {stack : List (State × Tree)} {looked : Nat}
    (hstands : Stands c stack i looked) (htop : top stack = q) :
    ∃ n c' pushed looked', Leads n c c' ∧ Stands c' (pushed ++ stack) j looked' ∧
      pushed.reverse.map (·.2) = ts ∧ top (pushed ++ stack) = q' ∧
      n + looked = Tree.stepsOf ts + looked' := by
  induction h generalizing c stack looked with
  | nil => exact ⟨0, c, [], looked, .refl c, hstands, rfl, htop, rfl⟩
  | @leaf q q₁ q₂ i j t p rest ts hlook hshift _ ih =>
    obtain ⟨n, hn, hlooked⟩ := hstands.leads_seeing hlook
    have hstep := @step_seeing_shift stack ⟨some t, p, rest⟩ t q₁ rfl (by rw [htop]; exact hshift)
    obtain ⟨m, c', pushed, looked', hm, hstands', hpushed, htop', hsteps⟩ :=
      ih (State.mem_all_of_move? (s := .token t.terminal) hshift)
        (@Stands.unread ((q₁, .leaf t) :: stack) _ rfl) rfl
    refine ⟨n + (1 + m), c', pushed ++ [(q₁, .leaf t)], looked',
      hn.trans ((Leads.of_step hstep).trans hm), ?_, ?_, ?_, ?_⟩
    · rwa [List.append_assoc]
    · rw [List.reverse_append, List.map_append, hpushed]
      rfl
    · rwa [List.append_assoc]
    · simp only [Tree.stepsOf, Tree.steps]
      omega
  | @node q q₁ q₂ q₃ i j k s r cs ts hcs hlook hr hsize hinner hgoto _ ihcs ih =>
    obtain ⟨n, c', pushed, looked', hn, hstands', hpushed, htop', hsteps⟩ := ihcs hq hstands htop
    obtain ⟨m, hm, hlooked⟩ := hstands'.leads_seeing hlook
    have hlength : pushed.length = r.size := by
      rw [← hsize, ← hpushed, List.length_map, List.length_reverse]
    have htake : (pushed ++ stack).take r.size = pushed := by
      rw [← hlength, List.take_left]
    have hdrop : (pushed ++ stack).drop r.size = stack := by
      rw [← hlength, List.drop_left]
    have hstep := @step_seeing_reduce (pushed ++ stack) s r
      (by rw [htop']; exact hcs.mem_all hq) (by rw [htop']; exact hr)
    rw [reduce_goto hinner (by rw [hdrop, htop]; exact hgoto), htake, hdrop, hpushed] at hstep
    obtain ⟨l, c'', pushed', looked'', hl, hstands'', hpushed', htop'', hsteps'⟩ :=
      ih (State.mem_all_of_move? (s := .category r.head) hgoto)
        (@Stands.seeing ((q₂, .node r.head r.construct cs) :: stack) _ _ hlook) rfl
    refine ⟨n + (m + (1 + l)), c'', pushed' ++ [(q₂, .node r.head r.construct cs)], looked'',
      hn.trans (hm.trans ((Leads.of_step hstep).trans hl)), ?_, ?_, ?_, ?_⟩
    · rwa [List.append_assoc]
    · rw [List.reverse_append, List.map_append, hpushed']
      rfl
    · rwa [List.append_assoc]
    · simp only [Tree.stepsOf, Tree.steps]
      omega

/-! ## What is reached was read -/

/-- The trees on a stack were read one after the other, up to a place. -/
inductive Stacked (source : List Char) : List (State × Tree) → Place → Prop where
  | nil : Stacked source [] (.start source)
  | cons {stack : List (State × Tree)} {i j : Place} {t : Tree} {q : State}
      (below : Stacked source stack i) (read : Reads (top stack) i [t] q j) :
      Stacked source ((q, t) :: stack) j

namespace Stacked

variable {source : List Char} {stack : List (State × Tree)} {i j : Place}

theorem top_mem_all (h : Stacked source stack j) : top stack ∈ State.all := by
  induction h with
  | nil => exact State.initial_mem_all
  | cons _ read ih => exact read.mem_all ih

theorem top_ne_initial (h : Stacked source stack j) (hstack : stack ≠ []) :
    top stack ≠ .initial := by
  cases h with
  | nil => exact absurd rfl hstack
  | cons below read =>
    exact fun htop => State.move?_ne_initial _ _ (read.move.trans (congrArg some htop))

/-- As many trees as an item has passed stand on the stack, and were read from the state below. -/
theorem pop (h : Stacked source stack j) {item : Item} (hitem : item ∈ (top stack).items)
    {n : Nat} (hn : item.passed = n) :
    n ≤ stack.length ∧ ∃ i, Stacked source (stack.drop n) i ∧
      Reads (top (stack.drop n)) i ((stack.take n).reverse.map (·.2)) (top stack) j := by
  induction n generalizing stack j item with
  | zero => exact ⟨Nat.zero_le _, j, h, .nil _ _⟩
  | succ n ih =>
    cases h with
    | nil =>
      have hzero : item = ⟨.chunk, 0, 0⟩ := List.mem_singleton.1 hitem
      rw [hzero] at hn
      contradiction
    | @cons stack i j t q below read =>
      obtain ⟨m, hm, -, hbefore⟩ := State.item_of_move? below.top_mem_all read.move hitem
      obtain rfl : n = m := by omega
      have hpopped : n ≤ stack.length ∧ ∃ i', Stacked source (stack.drop n) i' ∧
          Reads (top (stack.drop n)) i' ((stack.take n).reverse.map (·.2)) (top stack) i := by
        cases n with
        | zero => exact ⟨Nat.zero_le _, i, below, .nil _ _⟩
        | succ n => exact ih below (hbefore (Nat.succ_pos n)) rfl
      obtain ⟨hle, i', hbelow, hreads⟩ := hpopped
      refine ⟨Nat.succ_le_succ hle, i', hbelow, ?_⟩
      rw [List.take_succ_cons, List.reverse_cons, List.map_append]
      exact hreads.append read

end Stacked

/-- Before a reduction its trees stand on the stack. -/
theorem Stacked.reduce {source : List Char} {stack : List (State × Tree)} {j : Place}
    (h : Stacked source stack j) {la : Option Terminal} {r : Reduction}
    (hr : (top stack).reduction? la = some r) :
    r.size ≤ stack.length ∧ ∃ i, Stacked source (stack.drop r.size) i ∧
      Reads (top (stack.drop r.size)) i ((stack.take r.size).reverse.map (·.2)) (top stack) j := by
  rcases State.production_of_reduction? h.top_mem_all hr with
    ⟨hzero, -⟩ | ⟨item, hitem, -, hpassed, -, -⟩
  · rw [hzero]
    exact ⟨Nat.zero_le _, j, h, .nil _ _⟩
  · exact h.pop hitem hpassed

/-- A tree that is read from the start of a source to its end, where it makes up a chunk. -/
def ReadsChunk (source : List Char) (b : Tree) : Prop :=
  ∃ q j s r, Reads .initial (.start source) [b] q j ∧ j.look = some s ∧
    q.reduction? s.terminal = some r ∧ r.head = .chunk

/-- Where a chunk is made its block stands alone on the stack, and the source is at its end. -/
theorem Stacked.chunk_of_reduction? {source : List Char} {stack : List (State × Tree)} {i : Place}
    (h : Stacked source stack i) {la : Option Terminal} {r : Reduction}
    (hr : (top stack).reduction? la = some r) (hhead : r.head = .chunk) :
    ∃ q b, stack = [(q, b)] ∧ Reads .initial (.start source) [b] q i ∧ la = none ∧
      r.construct = .spliced ∧ r.size = 1 := by
  obtain ⟨hle, j, hbelow, hreads⟩ := h.reduce hr
  obtain ⟨hla, hconstruct, hsize, hsources⟩ := State.chunk_of_reduction? h.top_mem_all hr hhead
  rw [hsize] at hle hbelow hreads
  obtain ⟨⟨q, b⟩, below, rfl⟩ : ∃ a as, stack = a :: as := by
    cases stack with
    | nil => simp at hle
    | cons a as => exact ⟨a, as, rfl⟩
  have hinitial := State.eq_initial_of_sources hbelow.top_mem_all hreads.move hsources
  have hnil : below = [] := by
    cases below with
    | nil => rfl
    | cons a as => exact absurd hinitial (hbelow.top_ne_initial (List.cons_ne_nil _ _))
  subst hnil
  cases hbelow
  exact ⟨q, b, rfl, hreads, hla, hconstruct, hsize⟩

/-- What a step of the machine does with a stack at a place. -/
inductive Moves (stack : List (State × Tree)) (i : Place) : Configuration → Step → Prop where
  | failed (c : Configuration) (e : SyntaxFault) : Moves stack i c (.failed e)
  | look {s : Sight} (look : i.look = some s) :
      Moves stack i (.unread stack i) (.next (.seeing stack s))
  | shift {s : Sight} {t : Token} {q : State} (look : i.look = some s) (token : s.token = some t)
      (shift : (top stack).shift? t.terminal = some q) :
      Moves stack i (.seeing stack s)
        (.next (.unread ((q, .leaf t) :: stack) ⟨q, s.position, s.rest⟩))
  | reduce {s : Sight} {r : Reduction} {q : State} (look : i.look = some s)
      (reduction : (top stack).reduction? s.terminal = some r) (inner : r.head ≠ .chunk)
      (goto : (top (stack.drop r.size)).goto? r.head = some q) :
      Moves stack i (.seeing stack s) (.next (.seeing
        ((q, .node r.head r.construct ((stack.take r.size).reverse.map (·.2))) ::
          stack.drop r.size) s))
  | accept {s : Sight} {r : Reduction} (look : i.look = some s)
      (reduction : (top stack).reduction? s.terminal = some r) (head : r.head = .chunk) :
      Moves stack i (.seeing stack s)
        (.done (.node r.head r.construct ((stack.take r.size).reverse.map (·.2))))

theorem Configuration.Stands.moves {stack : List (State × Tree)} {i : Place} {c : Configuration}
    {looked : Nat} (h : Stands c stack i looked) (hq : top stack ∈ State.all) :
    Moves stack i c c.step := by
  cases h with
  | unread htop =>
    cases hlook : i.look with
    | none =>
      obtain ⟨e, he⟩ := step_unread_of_look_eq_none htop hlook
      rw [he]
      exact .failed _ e
    | some s =>
      rw [step_unread htop hlook]
      exact .look hlook
  | @seeing _ _ s hlook =>
    cases hr : (top stack).reduction? s.terminal with
    | none =>
      by_cases hshift : ∀ t, s.token = some t → (top stack).shift? t.terminal = none
      · obtain ⟨e, he⟩ := step_seeing_stuck hr hshift
        rw [he]
        exact .failed _ e
      · simp only [Classical.not_forall, ← ne_eq, Option.ne_none_iff_exists'] at hshift
        obtain ⟨t, ht, q, hq⟩ := hshift
        rw [step_seeing_shift ht hq]
        exact .shift hlook ht hq
    | some r =>
      rw [step_seeing_reduce hq hr]
      by_cases hhead : r.head = .chunk
      · rw [reduce_chunk hhead]
        exact .accept hlook hr hhead
      · cases hgoto : (top (stack.drop r.size)).goto? r.head with
        | none =>
          rw [reduce_stuck hhead hgoto]
          exact .failed _ _
        | some q =>
          rw [reduce_goto hhead hgoto]
          exact .reduce hlook hr hhead hgoto

/-- What a step leaves on the stack was read as well. -/
theorem Stacked.next {source : List Char} {stack : List (State × Tree)} {i : Place}
    (h : Stacked source stack i) {c c' : Configuration} (hmoves : Moves stack i c (.next c')) :
    ∃ stack' i' looked, Stacked source stack' i' ∧ Stands c' stack' i' looked := by
  cases hmoves with
  | look hlook => exact ⟨stack, i, 1, h, .seeing hlook⟩
  | @shift s t q hlook htoken hshift =>
    have hlook' : i.look = some ⟨some t, s.position, s.rest⟩ := by
      rw [hlook, ← htoken]
    exact ⟨_, _, 0, h.cons (.leaf hlook' hshift (.nil _ _)), .unread rfl⟩
  | reduce hlook hr hinner hgoto =>
    obtain ⟨hle, j, hbelow, hreads⟩ := h.reduce hr
    refine ⟨_, _, 1, hbelow.cons (.node hreads hlook hr ?_ hinner hgoto (.nil _ _)), .seeing hlook⟩
    rw [List.length_map, List.length_reverse, List.length_take, Nat.min_eq_left hle]

/-- The last step makes a chunk of the one tree on the stack, at the end of the source. -/
theorem Stacked.done {source : List Char} {stack : List (State × Tree)} {i : Place}
    (h : Stacked source stack i) {c : Configuration} {t : Tree}
    (hmoves : Moves stack i c (.done t)) :
    ∃ q b, c.stack = [(q, b)] ∧ c.lookahead = .atEnd ∧ ReadsChunk source b ∧
      t = .node .chunk .spliced [b] := by
  cases hmoves with
  | @accept s r hlook hr hhead =>
    obtain ⟨q, b, rfl, hreads, hla, hconstruct, hsize⟩ := h.chunk_of_reduction? hr hhead
    have htoken : s.token = none := Option.map_eq_none_iff.1 hla
    rw [hhead, hconstruct, hsize]
    exact ⟨q, b, rfl, by simp only [seeing, htoken], ⟨q, i, s, r, hreads, hlook, hr, hhead⟩, rfl⟩

/-- The result of a run is a chunk of a tree that is read. -/
theorem Stacked.sound {source : List Char} {stack : List (State × Tree)} {i : Place}
    (h : Stacked source stack i) {c : Configuration} {looked : Nat}
    (hstands : Stands c stack i looked) {fuel : Nat} {t : Tree} (hrun : c.run fuel = .ok t) :
    ∃ b, ReadsChunk source b ∧ t = .node .chunk .spliced [b] := by
  induction fuel generalizing c stack i looked with
  | zero => contradiction
  | succ fuel ih =>
    have hmoves := hstands.moves h.top_mem_all
    rw [Configuration.run] at hrun
    split at hrun
    · rename_i c' hstep
      rw [hstep] at hmoves
      obtain ⟨stack', i', looked', h', hstands'⟩ := h.next hmoves
      exact ih h' hstands' hrun
    · rename_i t' hstep
      cases hrun
      rw [hstep] at hmoves
      obtain ⟨q, b, -, -, hchunk, rfl⟩ := h.done hmoves
      exact ⟨b, hchunk, rfl⟩
    · contradiction

/-! ## Results of runs -/

theorem Configuration.run_succ {fuel : Nat} {c : Configuration} {t : Tree}
    (h : c.run fuel = .ok t) : c.run (fuel + 1) = .ok t := by
  induction fuel generalizing c with
  | zero => contradiction
  | succ fuel ih =>
    rw [run] at h ⊢
    split at h
    · exact ih h
    · exact h
    · contradiction

theorem Configuration.run_of_le {n m : Nat} {c : Configuration} {t : Tree}
    (h : c.run n = .ok t) (hle : n ≤ m) : c.run m = .ok t := by
  induction hle with
  | refl => exact h
  | step _ ih => exact run_succ ih

/-- A tree that is read to the end of a source is the result of a run that is long enough. -/
theorem ReadsChunk.run {source : List Char} {b : Tree} (h : ReadsChunk source b) :
    (Configuration.initial source).run (b.steps + 2) = .ok (.node .chunk .spliced [b]) := by
  obtain ⟨q, j, s, r, hreads, hlook, hr, hhead⟩ := h
  obtain ⟨n, c, pushed, looked, hleads, hstands, hpushed, htop, hsteps⟩ :=
    hreads.leads State.initial_mem_all (@Stands.unread [] (.start source) rfl) rfl
  obtain ⟨m, hm, hlooked⟩ := hstands.leads_seeing hlook
  have hq := hreads.mem_all State.initial_mem_all
  have hdone := @step_seeing_reduce (pushed ++ []) s r (by rw [htop]; exact hq)
    (by rw [htop]; exact hr)
  obtain ⟨-, hconstruct, hsize, -⟩ := State.chunk_of_reduction? hq hr hhead
  obtain ⟨⟨q', b'⟩, rfl⟩ : ∃ a, pushed = [a] := by
    have hlength := congrArg List.length hpushed
    rw [List.length_map, List.length_reverse, List.length_singleton] at hlength
    exact List.length_eq_one_iff.1 hlength
  cases hpushed
  rw [reduce_chunk hhead, hsize, hhead, hconstruct] at hdone
  rw [show (Configuration.initial source) = .unread [] (.start source) from rfl,
    show b'.steps + 2 = 1 + (n + m) by
      simp only [Tree.stepsOf] at hsteps
      omega, (hleads.trans hm) 1, Configuration.run, hdone]
  rfl

/-- The machine cannot go on from a state at a place. -/
def Stuck (q : State) (i : Place) : Prop :=
  i.look = none ∨ ∃ s, i.look = some s ∧ q.reduction? s.terminal = none ∧
    ∀ t, s.token = some t → q.shift? t.terminal = none

/-- No run on a source succeeds that gets stuck behind some trees. -/
theorem Reads.run_ne_ok {source : List Char} {ts : List Tree} {q : State} {i : Place}
    (h : Reads .initial (.start source) ts q i) (hstuck : Stuck q i) (fuel : Nat) (t : Tree) :
    (Configuration.initial source).run fuel ≠ .ok t := by
  intro hrun
  obtain ⟨n, c, pushed, looked, hleads, hstands, -, htop, -⟩ :=
    h.leads State.initial_mem_all (@Stands.unread [] (.start source) rfl) rfl
  have hfails : ∃ m c', Leads m c c' ∧ ∃ e, c'.step = .failed e := by
    rcases hstuck with hlook | ⟨s, hlook, hreduce, hshift⟩
    · cases hstands with
      | unread htop' => exact ⟨0, _, .refl _, step_unread_of_look_eq_none htop' hlook⟩
      | seeing hlook' =>
        rw [hlook] at hlook'
        contradiction
    · obtain ⟨m, hm, -⟩ := hstands.leads_seeing hlook
      exact ⟨m, _, hm, step_seeing_stuck (by rw [htop]; exact hreduce) (by rw [htop]; exact hshift)⟩
  obtain ⟨m, c', hm, e, he⟩ := hfails
  have hlong := run_of_le hrun (Nat.le_add_right fuel (1 + (n + m)))
  rw [show (Configuration.initial source) = .unread [] (.start source) from rfl,
    show fuel + (1 + (n + m)) = (fuel + 1) + (n + m) by omega, (hleads.trans hm) (fuel + 1),
    Configuration.run, he] at hlong
  contradiction

end TypedLinks.Luau
