import TypedLinks.Proofs.Forwarding.Placed
import TypedLinks.Proofs.Parsing.Carry
import TypedLinks.Proofs.Parsing.Lists
import TypedLinks.Proofs.Syntax.Rebuilt

/-!
# Defaults in front of another continuation

A default is read again where another comma or closing bracket follows it. Up to its last token
nothing of what follows is seen; from there on the machine only reduces, along the right edge of the
tree, and in every state that it comes through there it reduces the same before a comma as before a
closing bracket.
-/

namespace TypedLinks.Luau

open Grammar Lexeme

/-! ## The right edge of a type -/

namespace State

/-- The state that some symbols lead to from a state. -/
def moves? (q : State) : List GrammarSymbol → Option State
  | [] => some q
  | s :: ss => (q.move? s).bind (moves? · ss)

/-- The states before the last symbol of a production of an end of a type that may be read from a
state, where that symbol is no token. -/
def beforeLast (q : State) : List State :=
  (typeEnds.filter fun c => (q.goto? c).isSome).flatMap fun c =>
    (productions c).filterMap fun p =>
      if p.body.getLast? matches some (.category _) then q.moves? p.body.dropLast else none

/-- Some states with those that are reached from them along right edges of a number of nodes. -/
def rightEdge : Nat → List State → List State
  | 0, qs => qs
  | n + 1, qs => rightEdge n (qs ++ (qs.flatMap beforeLast).filter (!qs.contains ·)).eraseDups

/-- The states from which the end of a default is read. -/
def typeBases : List State := rightEdge 4 [defaulting false, defaulting true]

end State

/-- The terminals that may follow a default. -/
def defaultFollowers : List Terminal := [.comma, .greater, .greaterEqual]

/-- The terminals that follow a default that is written. -/
def writtenFollowers : List Terminal := [.comma, .greater]

namespace State

theorem typeBases_checked :
    (typeBases.all fun q => (typeEnds.filter fun c => (q.goto? c).isSome).all fun c =>
      (productions c).all fun p => p.body.getLast?.all fun s =>
        (q.moves? p.body.dropLast).all fun q₁ =>
          (match s with | .token _ => true | .category _ => typeBases.contains q₁) &&
            (q₁.move? s).all fun q₂ => defaultFollowers.all fun la =>
              (q₂.reduction? (some la)).all fun r => writtenFollowers.all fun la' =>
                q₂.reduction? (some la') = some r) = true := by
  decide

/-- At the right edge of a type the machine reduces the same whatever follows a default. -/
theorem rightEdge_of_typeBases {q q₁ q₂ : State} {c : Category} {l : Construct}
    {front : List GrammarSymbol} {s : GrammarSymbol} (hq : q ∈ typeBases) (hc : c ∈ typeEnds)
    (hgoto : (q.goto? c).isSome) (hp : ⟨l, front ++ [s]⟩ ∈ productions c)
    (hfront : q.moves? front = some q₁) (hlast : q₁.move? s = some q₂) :
    (∀ c', s = .category c' → q₁ ∈ typeBases) ∧
      ∀ la ∈ defaultFollowers, ∀ r, q₂.reduction? (some la) = some r →
        ∀ la' ∈ writtenFollowers, q₂.reduction? (some la') = some r := by
  have h := List.all_eq_true.1 (List.all_eq_true.1 (List.all_eq_true.1 typeBases_checked q hq) c
    (List.mem_filter.2 ⟨hc, hgoto⟩)) _ hp
  simp only [List.getLast?_concat, List.dropLast_concat, Option.all_some, hfront, hlast,
    Bool.and_eq_true] at h
  obtain ⟨hbase, hreduction⟩ := h
  constructor
  · rintro c' rfl
    exact List.contains_iff_mem.1 hbase
  · intro la hla r hr la' hla'
    have hr' := List.all_eq_true.1 hreduction la hla
    rw [hr, Option.all_some] at hr'
    exact of_decide_eq_true (List.all_eq_true.1 hr' la' hla')

end State

theorem Reads.moves {q q' : State} {i j : Place} {ts : List Tree} (h : Reads q i ts q' j) :
    q.moves? (ts.map Tree.symbol) = some q' := by
  induction ts generalizing q i with
  | nil =>
    cases h
    rfl
  | cons t ts ih =>
    obtain ⟨q₁, k, ht, hrest⟩ := h.uncons
    rw [List.map_cons, State.moves?, ht.move]
    exact ih hrest

/-- A production of an end of a type ends with a token or with an end of a type. -/
theorem last_of_typeEnd {c : Category} {l : Construct} {front : List GrammarSymbol} {c' : Category}
    (hc : c ∈ typeEnds) (hp : ⟨l, front ++ [Symbol.category c']⟩ ∈ productions c) :
    c' ∈ typeEnds := by
  have h := List.all_eq_true.1 (List.all_eq_true.1 typeEnds_checked c hc) _ hp
  simp only [List.getLast?_concat, Option.any_some] at h
  exact List.contains_iff_mem.1 h

/-- A tree of an end of a type has a last child. -/
theorem exists_concat_of_typeEnd {c : Category} {l : Construct} {ts : List Tree}
    (hc : c ∈ typeEnds) (hp : ⟨l, ts.map Tree.symbol⟩ ∈ productions c) :
    ∃ front t, ts = front ++ [t] := by
  have hbody := List.all_eq_true.1 (List.all_eq_true.1 typeEnds_checked c hc) _ hp
  rcases List.eq_nil_or_concat ts with rfl | ⟨front, t, rfl⟩
  · cases hbody
  · exact ⟨front, t, List.concat_eq_append⟩

/-- The last child of an end of a type holds a token. -/
theorem Tree.WellFormed.tokensOf_ne_nil_of_typeEnd {t : Tree} (h : t.WellFormed) {c : Category}
    {l : Construct} {front : List GrammarSymbol} (hc : c ∈ typeEnds)
    (hp : ⟨l, front ++ [t.symbol]⟩ ∈ productions c) : Tree.tokensOf [t] ≠ [] := by
  cases t with
  | leaf u => simp [Tree.tokensOf, Tree.tokens]
  | node c' l' us =>
    have hc' := last_of_typeEnd hc hp
    rw [Tree.tokensOf, Tree.tokensOf, List.append_nil]
    refine h.tokens_ne_nil ?_ ?_ <;>
      (intro heq; cases heq; exact absurd hc' (by decide))

/-- An end of a type is read again in front of another continuation that a default may have. -/
theorem Tree.WellFormed.carry_end {D : Tree} (h : D.WellFormed) {b v w : List Char} {q q' : State}
    {i i' j : Place} {c : Category} {la la' : Terminal} (hstop : Stops b w) (hopen : KeepsOpen b v w)
    (hw : ∀ k : Place, k.rest = w → k.scanner.accepts la' = true → k.Sees (some la'))
    (hread : Reads q i [D] q' j) (hD : D.symbol = .category c) (hc : c ∈ typeEnds)
    (hq : q ∈ State.typeBases) (hi : Twin b v w i i') (hj : j.rest = v) (hla : j.Sees (some la))
    (hlaMem : la ∈ defaultFollowers) (hla' : la' ∈ writtenFollowers) :
    ∃ D' j', Reads q i' [D'] q' j' ∧ D'.unplaced = D.unplaced ∧ j'.rest = w ∧
      j'.scanner.accepts la' = true := by
  induction h generalizing q q' i i' c with
  | leaf t => cases hD
  | @node c l ts hproduction hchildren ih =>
    cases hD
    obtain ⟨q₁, s, r, hts, hlook, hr, rfl, rfl, hsize, hinner, hgoto⟩ := hread.node_inv
    obtain ⟨s', hlook', hs'⟩ := hla
    obtain rfl := Option.some.inj (hlook.symm.trans hlook')
    rw [hs'] at hr
    obtain ⟨front, t, rfl⟩ := exists_concat_of_typeEnd hc hproduction
    rw [List.map_append, List.map_singleton] at hproduction
    obtain ⟨q₂, k, hfront, hlast⟩ := hts.split
    obtain ⟨hbase, hsame⟩ := State.rightEdge_of_typeBases hq hc (by rw [hgoto]; rfl) hproduction
      hfront.moves hlast.move
    have hreduction := hsame la hlaMem r hr la' hla'
    have htokens := (hchildren t (by simp)).tokensOf_ne_nil_of_typeEnd hc hproduction
    have hk : k.Inside v := by
      obtain ⟨u, p, rest, x, hlook, rfl, -⟩ := hlast.first htokens
      exact ⟨u, p, x, by rw [hlook, hj]⟩
    obtain ⟨front', k', hfront', hunplaced, hkk⟩ := hfront.carry hstop hopen hi hk
    obtain ⟨t', j', hlast', hunplaced', hj', haccepts⟩ : ∃ t' j', Reads q₂ k' [t'] q₁ j' ∧
        t'.unplaced = t.unplaced ∧ j'.rest = w ∧ j'.scanner.accepts la' = true := by
      cases t with
      | leaf u =>
        obtain ⟨p, rest, hseen, hshift, rfl⟩ := hlast.leaf_inv
        obtain rfl : rest = v := hj
        obtain ⟨u', p', hread', hsameToken⟩ := hkk.reads_last hseen hshift
        refine ⟨.leaf u', ⟨q₁, p', w⟩, hread', ?_, rfl, ?_⟩
        · rw [Tree.unplaced, Tree.unplaced, hsameToken]
        · change q₁.accepts la' = true
          rw [State.accepts, hreduction, Option.isSome_some, Bool.or_true]
      | node c' l' us =>
        exact ih _ (by simp) hlast rfl (last_of_typeEnd hc hproduction) (hbase c' rfl) hkk
    obtain ⟨s', hlook', hs'⟩ := hw j' hj' haccepts
    refine ⟨.node r.head r.construct (front' ++ [t']), j',
      .node (hfront'.append hlast') hlook' (by rw [hs']; exact hreduction) ?_ hinner hgoto
        (.nil _ _), ?_, hj', haccepts⟩
    · rw [hsize, List.length_append, List.length_append, Tree.length_of_unplacedOf_eq hunplaced]
      rfl
    · rw [Tree.unplaced, Tree.unplaced, Tree.unplacedOf_append, Tree.unplacedOf_append, hunplaced,
        Tree.unplacedOf, Tree.unplacedOf, Tree.unplacedOf, Tree.unplacedOf, hunplaced']

/-! ## Defaults -/

theorem mem_typeBases_checked : ∀ variadic, State.defaulting variadic ∈ State.typeBases := by
  decide

/-- What follows a default that is written: a comma or a closing bracket, and nothing that makes it
longer. -/
structure IsFollower (next : Terminal × List Char) : Prop where
  mem : next.1 ∈ writtenFollowers
  ends : ∀ c, next.2.head? = some c → mayFollow next.1 c = true

namespace IsFollower

variable {next : Terminal × List Char}

theorem stops {b : List Char} (h : IsFollower next) (hb : b.getLast? ≠ some '-') :
    Stops b (next.1.spelled ++ next.2) := by
  obtain ⟨la, rest⟩ := next
  have hla := h.mem
  simp only [writtenFollowers, List.mem_cons, List.not_mem_nil, or_false] at hla
  refine ⟨fun c hc => ?_, fun hminus => hb hminus.1⟩
  rcases hla with rfl | rfl <;> cases hc <;> decide

theorem shows (h : IsFollower next) {k : Place} {g : List Char} (hg : ∀ c ∈ g, isSpace c = true)
    (hk : k.rest = g ++ (next.1.spelled ++ next.2)) (hacc : k.scanner.accepts next.1 = true) :
    k.Shows next.1 next.1.spelled next.2 := by
  have hwritten : ∀ la ∈ writtenFollowers, isWritten la = true ∧ la.spelling? = some la.spelled := by
    decide
  obtain ⟨hisWritten, hspelled⟩ := hwritten _ h.mem
  exact shows_symbol hk hg hisWritten hspelled hacc h.ends

end IsFollower

/-- A default of a module is read in another source as well, as the same type with the same text. -/
theorem ReadsDefault.carry {m source : List Char} {variadic : Bool} {e : DefaultType} {la : Terminal}
    {next : Terminal × List Char} (h : ReadsDefault m variadic e la) (hla : la ∈ defaultFollowers)
    (hnext : IsFollower next)
    (hopen : KeepsOpen e.text (m.drop e.type.span.stop.offset) (next.1.spelled ++ next.2))
    {i : Place} (hscanner : i.scanner = .defaulting variadic) (hi : i.In source) {g : List Char}
    (hg : ∀ c ∈ g, isSpace c = true) (hrest : i.rest = g ++ (e.text ++ (next.1.spelled ++ next.2))) :
    ∃ D q j ty, Reads (.defaulting variadic) i [D] q j ∧ D.symbol = .category .typeOrPack ∧
      j.Shows next.1 next.1.spelled next.2 ∧ D.parts = .ok ([.type ty], some ty.span) ∧
      ty.unplaced = e.type.unplaced ∧ ty.span.text source = e.text := by
  obtain ⟨i₀, D, q, j, hscanner₀, hread, hD, hparts, hrest₀, hj, hsees⟩ := h.reads
  have hstop := hnext.stops h.last
  have hq : State.defaulting variadic ∈ State.all := State.walk_mem_all _
  have hwell := hread.wellFormed hq D List.mem_cons_self
  have htokens : Tree.tokensOf [D] ≠ [] := by
    rw [Tree.tokensOf, Tree.tokensOf, List.append_nil]
    exact hwell.tokens_ne_nil (by rw [hD]; decide) (by rw [hD]; decide)
  rw [hj] at hrest₀
  have hinside : i₀.Inside (m.drop e.type.span.stop.offset) := by
    obtain ⟨u, p, rest, x, hlook, rfl, -⟩ := hread.first htokens
    exact ⟨u, p, x, by rw [hlook, hj]⟩
  have hstarts : StartsToken (e.text ++ m.drop e.type.span.stop.offset) := by
    obtain ⟨b, hb, hstarts, -⟩ := hread.body htokens
    rwa [List.append_cancel_left (hb.symm.trans hrest₀)] at hstarts
  have hgap : i.gap = g := by
    rw [Place.gap, hrest, gap_blank hg (hstarts.carry h.ne_nil hstop)]
  have htwin : Twin e.text (m.drop e.type.span.stop.offset) (next.1.spelled ++ next.2) i₀ i :=
    twin_of_body hstop hopen hrest₀ hinside hrest hgap (hscanner.trans hscanner₀.symm)
  obtain ⟨D', j', hread', hunplaced, hj', haccepts⟩ := hwell.carry_end hstop hopen
    (fun k hk hacc => (hnext.shows (g := []) (by simp) hk hacc).sees) hread hD (by decide)
    (mem_typeBases_checked variadic) htwin hj hsees hla hnext.mem
  obtain ⟨ps, span, hparts', hunplacedParts, hspan⟩ := Tree.parts_congr hunplaced hparts
  obtain ⟨ty, rfl, hty⟩ : ∃ ty, ps = [.type ty] ∧ ty.unplaced = e.type.unplaced := by
    obtain ⟨p, rest, rfl, hp, hrest⟩ := List.map_eq_cons_iff.1 hunplacedParts
    obtain rfl := List.map_eq_nil_iff.1 hrest
    obtain ⟨ty, rfl, hty⟩ := Part.unplaced_eq_type.1 hp
    exact ⟨ty, rfl, hty⟩
  have hD' : D'.symbol = .category .typeOrPack := by
    rw [← Tree.symbol_unplaced, hunplaced, Tree.symbol_unplaced, hD]
  have hfits := (hread'.wellFormed hq _ List.mem_cons_self).fits hparts'
  rw [hD'] at hfits
  obtain ⟨_, heq, -, hcovers⟩ := hfits
  cases heq
  obtain rfl := hcovers _ rfl
  refine ⟨D', q, j', ty, hread', hD', hnext.shows (g := []) (by simp) hj' haccepts, hparts', hty, ?_⟩
  exact (hread'.text hi (Tree.partsOf_singleton.2 hparts') hgap (by rw [hj', hrest])).1

end TypedLinks.Luau
