import TypedLinks.Proofs.Parsing.Extent

/-!
# Shifts

Each token of a parse tree was shifted from one state into another one. The next token is scanned by
the latter state. Both states know where the token stands in the tree: the state after it holds an
item of the production that the token is a part of, and the state before it one of the production in
which the largest tree that starts with the token stands.
-/

namespace TypedLinks.Luau

open Grammar

/-- A token that was shifted, with the states before and after that. -/
structure Shift where
  before : State
  token : Token
  after : State

/-- The state after a symbol, where there is one. -/
def State.after (q : State) (s : GrammarSymbol) : State := (q.move? s).getD .initial

theorem State.after_eq {q q' : State} {s : GrammarSymbol} (h : q.move? s = some q') :
    q.after s = q' := by
  rw [after, h, Option.getD_some]

namespace Tree

mutual

/-- The shifts in which a tree is read from a state. -/
def shifts (q : State) : Tree → List Shift
  | leaf t => [⟨q, t, q.after (.token t.terminal)⟩]
  | node _ _ ts => shiftsOf q ts

/-- The shifts in which several trees are read from a state. -/
def shiftsOf (q : State) : List Tree → List Shift
  | [] => []
  | t :: ts => t.shifts q ++ shiftsOf (q.after t.symbol) ts

end

mutual

theorem map_token_shifts (q : State) (t : Tree) : (t.shifts q).map (·.token) = t.tokens := by
  match t with
  | leaf t => rfl
  | node c l ts => exact map_token_shiftsOf q ts

theorem map_token_shiftsOf (q : State) (ts : List Tree) :
    (shiftsOf q ts).map (·.token) = tokensOf ts := by
  match ts with
  | [] => rfl
  | t :: ts =>
    rw [shiftsOf, List.map_append, map_token_shifts q t, map_token_shiftsOf _ ts, tokensOf]

end

end Tree

/-! ## Scanning from shift to shift -/

/-- The tokens of some shifts are what comes next at a place, and behind each other; each one is
scanned by the state after the one before. -/
inductive Scanned : Place → List Shift → Place → Prop where
  | nil (i : Place) : Scanned i [] i
  | cons {i j : Place} {s : Shift} {p : Position} {rest : List Char} {ss : List Shift}
      (look : i.look = some ⟨some s.token, p, rest⟩) (others : Scanned ⟨s.after, p, rest⟩ ss j) :
      Scanned i (s :: ss) j

/-- The place behind a token that comes next. -/
theorem Place.In.of_look {source : List Char} {i : Place} {t : Token} {p : Position}
    {rest : List Char} (hi : i.In source) (h : i.look = some ⟨some t, p, rest⟩) (q : State) :
    Place.In source ⟨q, p, rest⟩ := by
  obtain ⟨x, hx, hposition⟩ := hi
  obtain ⟨hrest, -, -⟩ := Place.scan_of_look h
  obtain ⟨-, -, -, -, hp⟩ := Place.token_of_look h
  refine ⟨x ++ (i.gap ++ t.text), ?_, ?_⟩
  · rw [hx, hrest, List.append_assoc, List.append_assoc]
  · change p = _
    rw [hp, hposition, ← Position.advance_append]

namespace Scanned

variable {i j k : Place} {ss ss' : List Shift} {s : Shift}

theorem append (h : Scanned i ss j) (h' : Scanned j ss' k) : Scanned i (ss ++ ss') k := by
  induction h with
  | nil => exact h'
  | cons hlook _ ih => exact .cons hlook (ih h')

theorem split (h : Scanned i (ss ++ ss') k) : ∃ j, Scanned i ss j ∧ Scanned j ss' k := by
  induction ss generalizing i with
  | nil => exact ⟨i, .nil i, h⟩
  | cons s ss ih =>
    cases h with
    | cons hlook hothers =>
      obtain ⟨j, hss, hss'⟩ := ih hothers
      exact ⟨j, .cons hlook hss, hss'⟩

theorem place_in {source : List Char} (h : Scanned i ss j) (hi : i.In source) : j.In source := by
  induction h with
  | nil => exact hi
  | cons hlook _ ih => exact ih (hi.of_look hlook _)

theorem scanner_eq (h : Scanned i (ss ++ [s]) j) : j.scanner = s.after := by
  obtain ⟨k, -, hlast⟩ := h.split
  cases hlast with
  | cons _ hothers =>
    cases hothers
    rfl

end Scanned

theorem Reads.scanned {q q' : State} {i j : Place} {ts : List Tree} (h : Reads q i ts q' j) :
    Scanned i (Tree.shiftsOf q ts) j := by
  induction h with
  | nil q i => exact .nil i
  | @leaf q q₁ q₂ i j t p rest ts hlook hshift _ ih =>
    have hafter : q.after (.token t.terminal) = q₁ := State.after_eq hshift
    rw [Tree.shiftsOf, Tree.shifts, Tree.symbol, hafter]
    exact .cons hlook ih
  | @node q q₁ q₂ q₃ i j k s r cs ts _ _ _ _ _ hgoto _ ihcs ih =>
    have hafter : q.after (.category r.head) = q₂ := State.after_eq hgoto
    rw [Tree.shiftsOf, Tree.shifts, Tree.symbol, hafter]
    exact ihcs.append ih

/-! ## Where a shifted token stands -/

/-- A shifted token is a child of a node, and the state after it holds an item of the production of
that node, at its place. -/
def Shift.StandsIn (s : Shift) (u : Tree) : Prop :=
  ∃ c l ts us, u = .node c l (ts ++ .leaf s.token :: us) ∧
    ∃ item ∈ s.after.items, item.category = c ∧ item.passed = ts.length + 1 ∧
      item.body = (ts ++ .leaf s.token :: us).map Tree.symbol

/-- A shifted token is the first one of a tree, and the state before it holds an item that goes on
with that tree. -/
def Shift.Starts (s : Shift) (u : Tree) : Prop :=
  u.tokens.head? = some s.token ∧ ∃ item ∈ s.before.items, item.body[item.passed]? = some u.symbol

namespace Reads

variable {q q' : State} {i j : Place} {t : Tree} {ts : List Tree} {s : Shift}

/-- A shift that is made while some trees are read is made in one of them. -/
theorem locate (h : Reads q i ts q' j) (hs : s ∈ Tree.shiftsOf q ts) :
    ∃ us t vs q₁ k q₂ l, ts = us ++ t :: vs ∧ Reads q i us q₁ k ∧ Reads q₁ k [t] q₂ l ∧
      Reads q₂ l vs q' j ∧ s ∈ t.shifts q₁ := by
  induction ts generalizing q i with
  | nil => contradiction
  | cons t ts ih =>
    obtain ⟨q₁, k, ht, hts⟩ := h.uncons
    rw [Tree.shiftsOf, State.after_eq ht.move, List.mem_append] at hs
    rcases hs with hs | hs
    · exact ⟨[], t, ts, q, i, q₁, k, rfl, .nil _ _, ht, hts, hs⟩
    · obtain ⟨us, u, vs, q₂, l, q₃, m, rfl, hus, hu, hvs, hmem⟩ := ih hts hs
      exact ⟨t :: us, u, vs, q₂, l, q₃, m, rfl, ht.append hus, hu, hvs, hmem⟩

/-- A shift is a move of the automaton. -/
theorem shift_eq (h : Reads q i [t] q' j) (hq : q ∈ State.all) (hs : s ∈ t.shifts q) :
    s.before ∈ State.all ∧ s.before.shift? s.token.terminal = some s.after := by
  have hwf := h.wellFormed hq t (List.mem_singleton_self t)
  induction hwf generalizing q i q' j with
  | leaf tok =>
    rw [Tree.shifts, List.mem_singleton] at hs
    subst hs
    have hmove := h.move
    rw [← State.after_eq hmove] at hmove
    exact ⟨hq, hmove⟩
  | @node c l cs _ _ ih =>
    obtain ⟨q₁, sight, r, hcs, -⟩ := h.node_inv
    obtain ⟨us, u, vs, q₂, k, q₃, m, rfl, hus, hu, -, hmem⟩ := hcs.locate hs
    exact ih u (by simp) hu (hus.mem_all hq) hmem

/-- A token that is shifted while a tree is read is the tree itself, or a child of a node in it. -/
theorem standsIn (h : Reads q i [t] q' j) (hq : q ∈ State.all) (hs : s ∈ t.shifts q) :
    (t = .leaf s.token ∧ s.after = q') ∨ ∃ u, u.Within t ∧ s.StandsIn u := by
  have hwf := h.wellFormed hq t (List.mem_singleton_self t)
  induction hwf generalizing q i q' j with
  | leaf tok =>
    rw [Tree.shifts, List.mem_singleton] at hs
    subst hs
    exact .inl ⟨rfl, State.after_eq h.move⟩
  | @node c l cs _ _ ih =>
    obtain ⟨q₁, sight, r, hcs, hlook, hr, hhead, hconstruct, hsize, -⟩ := h.node_inv
    obtain ⟨us, u, vs, q₂, k, q₃, m, rfl, hus, hu, hvs, hmem⟩ := hcs.locate hs
    have hmember : u ∈ us ++ u :: vs := by simp
    rcases ih u hmember hu (hus.mem_all hq) hmem with ⟨rfl, rfl⟩ | ⟨v, hv, hstands⟩
    · have hsplit : us ++ .leaf s.token :: vs = (us ++ [.leaf s.token]) ++ vs := by simp
      rw [hsplit] at hsize
      obtain ⟨item, hitem, hcategory, hpassed, hbody⟩ :=
        (hus.append hu).item_of_children hvs hq (by simp) hr hsize.symm
      refine .inr ⟨_, .self _, c, l, us, vs, rfl, item, hitem, hcategory.trans hhead, ?_, ?_⟩
      · rw [hpassed, List.length_append, List.length_singleton]
      · rw [hbody, hsplit]
    · exact .inr ⟨v, .child hmember hv, hstands⟩

/-- A token that is shifted while a tree is read is the first one of the tree, or of a tree in it
that is not the first child of its node. -/
theorem starts (h : Reads q i [t] q' j) (hq : q ∈ State.all) (hs : s ∈ t.shifts q) :
    (t.tokens.head? = some s.token ∧ s.before = q) ∨ ∃ u, u.Within t ∧ s.Starts u := by
  have hwf := h.wellFormed hq t (List.mem_singleton_self t)
  induction hwf generalizing q i q' j with
  | leaf tok =>
    rw [Tree.shifts, List.mem_singleton] at hs
    subst hs
    exact .inl ⟨rfl, rfl⟩
  | @node c l cs _ _ ih =>
    obtain ⟨q₁, sight, r, hcs, hlook, hr, -, -, hsize, -⟩ := h.node_inv
    obtain ⟨us, u, vs, q₂, k, q₃, m, rfl, hus, hu, hvs, hmem⟩ := hcs.locate hs
    have hmember : u ∈ us ++ u :: vs := by simp
    rcases ih u hmember hu (hus.mem_all hq) hmem with ⟨hfirst, hbefore⟩ | ⟨v, hv, hstarts⟩
    · by_cases hnil : us = []
      · subst hnil
        cases hus
        refine .inl ⟨?_, hbefore⟩
        rw [Tree.tokens, List.nil_append, Tree.tokensOf, List.head?_append, hfirst]
        rfl
      · obtain ⟨item, hitem, -, hpassed, hbody⟩ :=
          hus.item_of_children (hu.append hvs) hq hnil hr hsize.symm
        refine .inr ⟨u, .child hmember (.self u), hfirst, item, hbefore ▸ hitem, ?_⟩
        rw [hbody, hpassed]
        simp
    · exact .inr ⟨v, .child hmember hv, hstarts⟩

end Reads

end TypedLinks.Luau
