import TypedLinks.Proofs.Lexing.Written
import TypedLinks.Proofs.Parsing.Extent

/-!
# Reading what is written

States are named by the symbols that lead to them. From a known state a written token is shifted, and
where one tree makes up the next larger one, and that an even larger one, a whole chain of such
reductions is taken at once.
-/

namespace TypedLinks.Luau

open Grammar Lexeme

/-! ## Known states -/

namespace State

/-- The state that some symbols lead to from the start. -/
def walk (ss : List GrammarSymbol) : State :=
  ss.foldl (fun q s => (q.move? s).getD initial) initial

/-- The state that some symbols and then further ones lead to. -/
def walkOn (start further : List GrammarSymbol) : State := walk (start ++ further)

theorem walk_mem_all (ss : List GrammarSymbol) : walk ss ∈ all := by
  have hfoldl (ss : List GrammarSymbol) (q : State) (hq : q ∈ all) :
      ss.foldl (fun q s => (q.move? s).getD initial) q ∈ all := by
    induction ss generalizing q with
    | nil => exact hq
    | cons s ss ih =>
      refine ih _ ?_
      dsimp only
      cases h : q.move? s with
      | none => exact initial_mem_all
      | some q' => exact mem_all_of_move? h
  exact hfoldl ss _ initial_mem_all

/-- Whether a state reduces a number of trees to a node before a lookahead. -/
def reducesTo (q : State) (la : Option Terminal) (c : Category) (l : Construct) (size : Nat) : Bool :=
  (q.reduction? la).any fun r => r.head = c && r.construct = l && r.size = size

/-- The state after a chain of reductions, each of a single tree that was read from a state. -/
def climb (base : State) (la : Option Terminal) : State → List (Category × Construct) →
    Option State
  | q, [] => some q
  | q, (c, l) :: chain =>
    if c ≠ .chunk && q.reducesTo la c l 1 then (base.goto? c).bind (climb base la · chain) else none

end State

/-- A tree with a chain of nodes above it, the lowest first. -/
def Tree.wrap (t : Tree) : List (Category × Construct) → Tree
  | [] => t
  | (c, l) :: chain => Tree.wrap (.node c l [t]) chain

/-- The nodes of a chain that contribute nothing of their own. -/
def spliced (cs : List Category) : List (Category × Construct) := cs.map (·, .spliced)

namespace Tree

variable {t : Tree} {ts : List Tree} {own : List Part} {span : Option Span} {s : Span}

theorem wrap_append (t : Tree) (chain chain' : List (Category × Construct)) :
    t.wrap (chain ++ chain') = (t.wrap chain).wrap chain' := by
  induction chain generalizing t with
  | nil => rfl
  | cons n chain ih => exact ih _

theorem partsOf_snoc {ps : List Part} {s' : Option Span} (h : partsOf ts = .ok (own, span))
    (ht : t.parts = .ok (ps, s')) : partsOf (ts ++ [t]) = .ok (own ++ ps, joinSpans span s') :=
  partsOf_append_eq_ok.2 ⟨own, span, ps, s', h, partsOf_singleton.2 ht, rfl, rfl⟩

theorem partsOf_snoc_some {ps : List Part} (h : partsOf ts = .ok (own, span))
    (ht : t.parts = .ok (ps, some s)) : ∃ s', partsOf (ts ++ [t]) = .ok (own ++ ps, some s') := by
  have hsnoc := partsOf_snoc h ht
  cases span <;> exact ⟨_, hsnoc⟩

theorem parts_content {tok : Token} (h : tok.terminal.isContent = true) :
    (leaf tok).parts = .ok ([.token tok], some tok.span) := by
  rw [parts, if_pos h]

theorem parts_silent {tok : Token} (h : tok.terminal.isContent = false) :
    (leaf tok).parts = .ok ([], some tok.span) := by
  rw [parts, h]
  rfl

/-- A spliced node contributes what its children do. -/
theorem parts_spliced {c : Category} (h : partsOf ts = .ok (own, span)) :
    (node c .spliced ts).parts = .ok (own, span) :=
  parts_node_eq_ok.2 ⟨own, h, contribute_spliced _ _⟩

/-- Any other node contributes what its construct builds. -/
theorem parts_built {c : Category} {l : Construct} {p : Part}
    (h : partsOf ts = .ok (own, some s)) (hl : l ≠ .spliced) (hp : assemble l s own = .ok p) :
    (node c l ts).parts = .ok ([p], some s) :=
  parts_node_eq_ok.2 ⟨own, h, contribute_of_assemble hl hp⟩

theorem parts_wrap_spliced (cs : List Category) (h : t.parts = .ok (own, span)) :
    (t.wrap (spliced cs)).parts = .ok (own, span) := by
  induction cs generalizing t with
  | nil => exact h
  | cons c cs ih => exact ih (parts_spliced (partsOf_singleton.2 h))

end Tree

/-! ## Seeing and shifting -/

namespace State

/-- The keywords that a state accepts. -/
def words (q : State) : List Terminal :=
  Terminal.all.filter fun t => q.accepts t && t.spelling?.any fun w => w.head?.any isNameStart

end State

/-- The terminals that a state accepts and whose lexemes may start with a character. -/
def State.starters (q : State) (c : Char) : List Terminal :=
  Terminal.all.filter fun t => q.accepts t && match t.spelling? with
    | some w => w.head? = some c
    | none => t ≠ .name || isNameStart c

/-- What comes next at a place. -/
def Place.Sees (i : Place) (la : Option Terminal) : Prop := ∃ s, i.look = some s ∧ s.terminal = la

/-- The token that comes next at a place, and what follows it. -/
def Place.Shows (i : Place) (t : Terminal) (text rest : List Char) : Prop :=
  ∃ s p, i.look = some ⟨some ⟨t, text, s⟩, p, rest⟩

section Shift

variable {q q' : State} {i j : Place} {t : Terminal} {g text rest : List Char}

theorem Place.Shows.sees (h : i.Shows t text rest) : i.Sees (some t) := by
  obtain ⟨s, p, hlook⟩ := h
  exact ⟨_, hlook, rfl⟩

/-- A token that comes next is shifted. -/
theorem Place.Shows.reads (h : i.Shows t text rest) (hshift : q.shift? t = some q') :
    ∃ tok p, Reads q i [.leaf tok] q' ⟨q', p, rest⟩ ∧ tok.terminal = t ∧ tok.text = text := by
  obtain ⟨s, p, hlook⟩ := h
  exact ⟨_, p, .leaf hlook hshift (.nil _ _), rfl, rfl⟩

/-- A lexeme that is scanned behind the gap comes next. -/
theorem shows_of_scan (hrest : i.rest = g ++ (text ++ rest)) (hgap : gap 0 (g ++ (text ++ rest)) = g)
    (h : ∀ p, scan i.scanner.accepts p (text ++ rest) =
      some (⟨t, text, ⟨p, p.advance text⟩⟩, rest)) : i.Shows t text rest :=
  ⟨_, _, Place.look_of_scan hrest (by rw [Place.gap, hrest, hgap]) (h _)⟩

theorem IsName.startsToken (h : IsName text) (rest : List Char) : StartsToken (text ++ rest) := by
  obtain ⟨c, cs, rfl, hc, -⟩ := h.cons
  refine startsToken_of_head (c := c) rfl ?_ ?_
  · cases hspace : isSpace c with
    | false => rfl
    | true =>
      simp only [isSpace, Bool.or_eq_true, decide_eq_true_eq] at hspace
      rcases hspace with ((((rfl | rfl) | rfl) | rfl) | rfl) | rfl <;> exact absurd hc (by decide)
  · rintro rfl
    exact absurd hc (by decide)

/-- A keyword comes next where it is accepted. -/
theorem shows_keyword (hrest : i.rest = g ++ (text ++ rest)) (hg : ∀ c ∈ g, isSpace c = true)
    (h : IsName text) (hend : EndsName rest) (ht : t.spelling? = some text)
    (hacc : i.scanner.accepts t = true) : i.Shows t text rest :=
  shows_of_scan hrest (gap_blank hg (h.startsToken rest)) (scan_keyword h hend ht hacc)

/-- A name comes next where names are accepted, and it is no keyword there. -/
theorem shows_name (hrest : i.rest = g ++ (text ++ rest)) (hg : ∀ c ∈ g, isSpace c = true)
    (h : IsName text) (hend : EndsName rest) (hacc : i.scanner.accepts .name = true)
    (hwords : ∀ u ∈ i.scanner.words, u.spelling? ≠ some text) : i.Shows .name text rest := by
  refine shows_of_scan hrest (gap_blank hg (h.startsToken rest)) (scan_name h hend hacc ?_)
  intro u hu hspelling
  refine hwords u (List.mem_filter.2 ⟨Terminal.mem_all u, ?_⟩) hspelling
  obtain ⟨c, cs, rfl, hc, -⟩ := h.cons
  rw [hu, hspelling]
  exact hc

theorem isWritten_head_checked :
    ∀ t ∈ Terminal.all, isWritten t = true →
      t.spelling?.any (fun w => w.head?.any fun c => !isSpace c && c ≠ '-') = true := by
  decide

/-- A symbol comes next where it is accepted, if nothing makes it longer. -/
theorem shows_symbol (hrest : i.rest = g ++ (text ++ rest)) (hg : ∀ c ∈ g, isSpace c = true)
    (hwritten : isWritten t = true) (ht : t.spelling? = some text)
    (hacc : i.scanner.accepts t = true) (hend : ∀ c, rest.head? = some c → mayFollow t c = true) :
    i.Shows t text rest := by
  refine shows_of_scan hrest (gap_blank hg ?_) (scan_symbol hwritten ht hacc hend)
  have hhead := isWritten_head_checked t (Terminal.mem_all t) hwritten
  rw [ht, Option.any_some, Option.any_eq_true] at hhead
  obtain ⟨c, hc, hclass⟩ := hhead
  rw [Bool.and_eq_true, Bool.not_eq_true', decide_eq_true_eq] at hclass
  obtain ⟨cs, rfl⟩ := List.head?_eq_some_iff.1 hc
  exact startsToken_of_head (c := c) rfl hclass.1 hclass.2

/-- Where a text starts with a character, one of its starters comes next, or nothing does. -/
theorem look_of_head {c : Char} (hc : i.rest.head? = some c) (hspace : isSpace c = false)
    (hminus : c ≠ '-') : i.look = none ∨ ∃ t ∈ i.scanner.starters c, i.Sees (some t) := by
  have hgap : i.gap = [] := gap_zero_of_triviaLength (startsToken_of_head hc hspace hminus).2
  cases hlook : i.look with
  | none => exact .inl rfl
  | some s =>
    obtain ⟨token, p, rest⟩ := s
    cases token with
    | none =>
      obtain ⟨hend, -, -⟩ := Place.look_eq_end_iff.1 hlook
      rw [← hend, hgap] at hc
      contradiction
    | some tok =>
      obtain ⟨hrest, -, -⟩ := Place.scan_of_look hlook
      obtain ⟨hacc, hne, hlexeme, -, -⟩ := Place.token_of_look hlook
      rw [hgap, List.nil_append] at hrest
      obtain ⟨d, ds, htext⟩ := List.exists_cons_of_ne_nil hne
      obtain rfl : d = c := by
        rw [hrest, htext] at hc
        exact Option.some.inj hc
      refine .inr ⟨tok.terminal, List.mem_filter.2 ⟨Terminal.mem_all _, ?_⟩, _, hlook, rfl⟩
      rw [hacc, Bool.true_and]
      cases hspelling : tok.terminal.spelling? with
      | some w =>
        rw [← Terminal.text_of_spelling? hspelling hlexeme, htext]
        exact decide_eq_true rfl
      | none =>
        by_cases hname : tok.terminal = .name
        · rw [hname] at hlexeme
          obtain ⟨e, es, heq, he, -⟩ := (isName_of_lexeme? hlexeme).cons
          rw [htext] at heq
          cases heq
          simp [he]
        · simp [hname]

/-- Trees are reduced to a node before what comes next. -/
theorem Reads.reduce {q₁ : State} {ts : List Tree} {la : Option Terminal} {c : Category}
    {l : Construct} (h : Reads q i ts q₁ j) (hsees : j.Sees la)
    (hr : q₁.reducesTo la c l ts.length = true) (hc : c ≠ .chunk) (hgoto : q.goto? c = some q') :
    Reads q i [.node c l ts] q' j := by
  obtain ⟨s, hlook, rfl⟩ := hsees
  obtain ⟨r, hreduction, hfit⟩ := (Option.any_eq_true _ _).1 hr
  simp only [Bool.and_eq_true, decide_eq_true_eq] at hfit
  obtain ⟨⟨rfl, rfl⟩, hsize⟩ := hfit
  exact .node h hlook hreduction hsize.symm hc hgoto (.nil _ _)

/-- A tree is reduced along a chain before what comes next. -/
theorem Reads.climb {q₁ : State} {u : Tree} {la : Option Terminal}
    {chain : List (Category × Construct)} (h : Reads q i [u] q₁ j) (hsees : j.Sees la)
    (hclimb : q.climb la q₁ chain = some q') : Reads q i [u.wrap chain] q' j := by
  induction chain generalizing q₁ u with
  | nil =>
    cases hclimb
    exact h
  | cons n chain ih =>
    obtain ⟨c, l⟩ := n
    rw [State.climb] at hclimb
    split at hclimb
    · rename_i hr
      rw [Bool.and_eq_true, decide_eq_true_eq] at hr
      obtain ⟨q₂, hgoto, hclimb⟩ := Option.bind_eq_some_iff.1 hclimb
      exact ih (h.reduce hsees hr.2 hr.1 hgoto) hclimb
    · contradiction

/-- A chain of nodes is read as the tree below it is. -/
theorem Reads.unwrap {t : Tree} {chain : List (Category × Construct)}
    (h : Reads q i [t.wrap chain] q' j) : ∃ q₁, Reads q i [t] q₁ j := by
  induction chain generalizing t with
  | nil => exact ⟨q', h⟩
  | cons n chain ih =>
    obtain ⟨q₁, hnode⟩ := ih h
    obtain ⟨q₂, -, -, hread, -⟩ := hnode.node_inv
    exact ⟨q₂, hread⟩

end Shift

end TypedLinks.Luau
