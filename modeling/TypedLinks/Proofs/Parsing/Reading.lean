import TypedLinks.Proofs.Parsing.Table

/-!
# Reading trees

What the parsing machine does between two places of a source, without its stack: from a state and a
place it reads some trees one after the other and ends in a state at a later place. Everything that
is said of parsing is proved by induction on this relation.
-/

namespace TypedLinks.Luau

open Grammar

/-! ## Places -/

/-- A place in a source behind a shifted token, and the state that was entered there: it decides
which terminals are looked for. -/
structure Place where
  scanner : State
  position : Position
  rest : List Char

/-- What comes next at a place: a token or the end of the source, and what lies behind it. -/
structure Sight where
  token : Option Token
  position : Position
  rest : List Char

namespace Sight

/-- The terminal of the next token. -/
def terminal (s : Sight) : Option Terminal := s.token.map (·.terminal)

end Sight

namespace Place

/-- The start of a source. -/
def start (source : List Char) : Place := ⟨.initial, .start, source⟩

/-- What the machine sees at a place. It sees nothing where no accepted token starts. -/
def look (i : Place) : Option Sight :=
  match skipTrivia 0 i.position i.rest with
  | (p, []) => some ⟨none, p, []⟩
  | (p, c :: cs) =>
    (scan i.scanner.accepts p (c :: cs)).map fun (t, rest) => ⟨some t, t.span.stop, rest⟩

end Place

/-! ## Trees between places -/

/-- `Reads q i ts q' j`: from state `q` at place `i` the machine reads the trees `ts`, which takes it
to state `q'` at place `j`. -/
inductive Reads : State → Place → List Tree → State → Place → Prop where
  | nil (q : State) (i : Place) : Reads q i [] q i
  | leaf {q q₁ q₂ : State} {i j : Place} {t : Token} {p : Position} {rest : List Char}
      {ts : List Tree} (look : i.look = some ⟨some t, p, rest⟩)
      (shift : q.shift? t.terminal = some q₁) (others : Reads q₁ ⟨q₁, p, rest⟩ ts q₂ j) :
      Reads q i (.leaf t :: ts) q₂ j
  | node {q q₁ q₂ q₃ : State} {i j k : Place} {s : Sight} {r : Reduction} {cs ts : List Tree}
      (children : Reads q i cs q₁ j) (look : j.look = some s)
      (reduction : q₁.reduction? s.terminal = some r) (size : cs.length = r.size)
      (inner : r.head ≠ .chunk) (goto : q.goto? r.head = some q₂) (others : Reads q₂ j ts q₃ k) :
      Reads q i (.node r.head r.construct cs :: ts) q₃ k

namespace Reads

variable {q q' q₁ q₂ : State} {i j k : Place} {t : Tree} {ts us : List Tree}

theorem append (h : Reads q i ts q₁ j) (h' : Reads q₁ j us q₂ k) :
    Reads q i (ts ++ us) q₂ k := by
  induction h with
  | nil => exact h'
  | leaf hlook hshift _ ih => exact .leaf hlook hshift (ih h')
  | node hcs hlook hr hsize hinner hgoto _ _ ih =>
    exact .node hcs hlook hr hsize hinner hgoto (ih h')

/-- The first of some trees is read by itself, then the others. -/
theorem uncons (h : Reads q i (t :: ts) q₂ k) :
    ∃ q₁ j, Reads q i [t] q₁ j ∧ Reads q₁ j ts q₂ k := by
  cases h with
  | leaf hlook hshift hrest => exact ⟨_, _, .leaf hlook hshift (.nil _ _), hrest⟩
  | node hcs hlook hr hsize hinner hgoto hrest =>
    exact ⟨_, _, .node hcs hlook hr hsize hinner hgoto (.nil _ _), hrest⟩

theorem split (h : Reads q i (ts ++ us) q₂ k) :
    ∃ q₁ j, Reads q i ts q₁ j ∧ Reads q₁ j us q₂ k := by
  induction ts generalizing q i with
  | nil => exact ⟨q, i, .nil _ _, h⟩
  | cons t ts ih =>
    obtain ⟨q₁, j, ht, hrest⟩ := h.uncons
    obtain ⟨q₃, l, hts, hus⟩ := ih hrest
    exact ⟨q₃, l, ht.append hts, hus⟩

theorem leaf_inv {t : Token} (h : Reads q i [.leaf t] q' j) :
    ∃ p rest, i.look = some ⟨some t, p, rest⟩ ∧ q.shift? t.terminal = some q' ∧
      j = ⟨q', p, rest⟩ := by
  cases h with
  | leaf hlook hshift hrest =>
    cases hrest
    exact ⟨_, _, hlook, hshift, rfl⟩

theorem node_inv {c : Category} {l : Construct} {cs : List Tree}
    (h : Reads q i [.node c l cs] q' j) :
    ∃ q₁ s r, Reads q i cs q₁ j ∧ j.look = some s ∧ q₁.reduction? s.terminal = some r ∧
      r.head = c ∧ r.construct = l ∧ r.size = cs.length ∧ c ≠ .chunk ∧ q.goto? c = some q' := by
  cases h with
  | node hcs hlook hr hsize hinner hgoto hrest =>
    cases hrest
    exact ⟨_, _, _, hcs, hlook, hr, rfl, rfl, hsize.symm, hinner, hgoto⟩

/-- One tree is a move by its symbol. -/
theorem move (h : Reads q i [t] q' j) : q.move? t.symbol = some q' := by
  cases t with
  | leaf t =>
    obtain ⟨p, rest, -, hshift, -⟩ := h.leaf_inv
    exact hshift
  | node c l cs =>
    obtain ⟨q₁, s, r, -, -, -, -, -, -, -, hgoto⟩ := h.node_inv
    exact hgoto

theorem mem_all (h : Reads q i ts q' j) (hq : q ∈ State.all) : q' ∈ State.all := by
  induction ts generalizing q i with
  | nil =>
    cases h
    exact hq
  | cons t ts ih =>
    obtain ⟨q₁, k, ht, hrest⟩ := h.uncons
    exact ih hrest (State.mem_all_of_move? ht.move)

/-- An item of the state behind some trees has passed their symbols, and the state before the trees
holds the item as it was there. -/
theorem symbols_of_item (h : Reads q i ts q' j) (hq : q ∈ State.all) {item : Item}
    (hitem : item ∈ q'.items) {n : Nat} (hn : item.passed = n + ts.length) :
    (item.body.drop n).take ts.length = ts.map Tree.symbol ∧
      (0 < n → item.upTo n ∈ q.items) := by
  induction ts generalizing q i n with
  | nil =>
    cases h
    subst hn
    exact ⟨rfl, fun _ => hitem⟩
  | cons t ts ih =>
    obtain ⟨q₁, k, ht, hrest⟩ := h.uncons
    rw [List.length_cons] at hn
    obtain ⟨hsymbols, hbefore⟩ := ih hrest (State.mem_all_of_move? ht.move)
      (by rw [hn]; omega : item.passed = n + 1 + ts.length)
    obtain ⟨m, hm, hbody, hfirst⟩ := State.item_of_move? hq ht.move (hbefore (Nat.succ_pos n))
    rw [Item.passed_upTo] at hm
    obtain rfl : n = m := by omega
    rw [Item.body_upTo] at hbody
    obtain ⟨hlt, hget⟩ := List.getElem?_eq_some_iff.1 hbody
    refine ⟨?_, hfirst⟩
    rw [List.drop_eq_getElem_cons hlt, List.length_cons, List.take_succ_cons, List.map_cons, hget,
      hsymbols]

/-- The trees that are reduced to a node are the body of a production of its category. -/
theorem production (h : Reads q i ts q' j) (hq : q ∈ State.all) {la : Option Terminal}
    {r : Reduction} (hr : q'.reduction? la = some r) (hsize : ts.length = r.size) :
    ⟨r.construct, ts.map Tree.symbol⟩ ∈ productions r.head := by
  rcases State.production_of_reduction? (h.mem_all hq) hr with
    ⟨hzero, hmem⟩ | ⟨item, hitem, -, hpassed, hlength, hmem⟩
  · rw [hzero, List.length_eq_zero_iff] at hsize
    subst hsize
    exact hmem
  · have hbody := (h.symbols_of_item hq hitem (n := 0) (by omega)).1
    rw [List.drop_zero, hsize, ← hlength, List.take_length] at hbody
    rwa [← hbody]

/-- Between trees that are reduced the state holds an item of their production. -/
theorem item_of_children (hts : Reads q i ts q₁ j) (hus : Reads q₁ j us q₂ k) (hq : q ∈ State.all)
    (hne : ts ≠ []) {la : Option Terminal} {r : Reduction} (hr : q₂.reduction? la = some r)
    (hsize : (ts ++ us).length = r.size) :
    ∃ item ∈ q₁.items, item.category = r.head ∧ item.passed = ts.length ∧
      item.body = (ts ++ us).map Tree.symbol := by
  have hchildren := hts.append hus
  have hpos := List.length_pos_iff.2 hne
  rcases State.production_of_reduction? (hchildren.mem_all hq) hr with
    ⟨hzero, -⟩ | ⟨item, hitem, hcategory, hpassed, hlength, -⟩
  · rw [hzero, List.length_append] at hsize
    omega
  · obtain ⟨hbody, -⟩ := hchildren.symbols_of_item hq hitem (n := 0) (by omega)
    obtain ⟨-, hbefore⟩ := hus.symbols_of_item (hts.mem_all hq) hitem (n := ts.length)
      (by rw [hpassed, ← hsize, List.length_append])
    rw [List.drop_zero, hsize, ← hlength, List.take_length] at hbody
    exact ⟨item.upTo ts.length, hbefore hpos, hcategory, rfl, hbody⟩

/-- Between the children of a node the state holds an item of the production of the node. -/
theorem item_between {c : Category} {l : Construct} (h : Reads q i [.node c l (ts ++ us)] q' j)
    (hq : q ∈ State.all) (hts : ts ≠ []) :
    ∃ q₁ k q₂, Reads q i ts q₁ k ∧ Reads q₁ k us q₂ j ∧
      ∃ item ∈ q₁.items, item.passed = ts.length ∧ item.body = (ts ++ us).map Tree.symbol := by
  obtain ⟨q₂, s, r, hchildren, -, hr, -, -, hsize, -⟩ := h.node_inv
  obtain ⟨q₁, k, hfirst, hlast⟩ := hchildren.split
  obtain ⟨item, hitem, -, hpassed, hbody⟩ := hfirst.item_of_children hlast hq hts hr hsize.symm
  exact ⟨q₁, k, q₂, hfirst, hlast, item, hitem, hpassed, hbody⟩

end Reads

end TypedLinks.Luau
