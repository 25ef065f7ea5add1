import TypedLinks.Proofs.Parsing.Derivation
import TypedLinks.Proofs.Syntax.Members

/-!
# Where trees stand

The characters that reading some trees passes, and the extent of the trees: from behind the gap at the
first place to the last place. A tree that stands inside another one is read as well, from a state
and a place of its own.
-/

namespace TypedLinks.Luau

open Grammar

namespace Reads

variable {q q' : State} {i j : Place} {ts : List Tree}

/-! ## Passed characters -/

theorem consumed (h : Reads q i ts q' j) :
    ∃ a, i.rest = a ++ j.rest ∧ j.position = i.position.advance a := by
  induction h with
  | nil => exact ⟨[], rfl, rfl⟩
  | @leaf q q₁ q₂ i j t p rest ts hlook hshift _ ih =>
    obtain ⟨hrest, -, -⟩ := Place.scan_of_look hlook
    obtain ⟨-, -, -, -, hp⟩ := Place.token_of_look hlook
    obtain ⟨b, hb, hj⟩ := ih
    refine ⟨i.gap ++ t.text ++ b, ?_, ?_⟩
    · rw [hrest, show rest = b ++ j.rest from hb, List.append_assoc, List.append_assoc]
    · rw [hj, Position.advance_append, ← hp]
  | node _ _ _ _ _ _ _ ihcs ih =>
    obtain ⟨a, ha, hj⟩ := ihcs
    obtain ⟨b, hb, hk⟩ := ih
    exact ⟨a ++ b, by rw [ha, hb, List.append_assoc], by rw [hk, hj, Position.advance_append]⟩

/-- Trees without tokens are read on the spot. -/
theorem place_eq (h : Reads q i ts q' j) (htokens : Tree.tokensOf ts = []) : j = i := by
  induction h with
  | nil => rfl
  | leaf => simp [Tree.tokensOf, Tree.tokens] at htokens
  | node _ _ _ _ _ _ _ ihcs ih =>
    rw [Tree.tokensOf, Tree.tokens, List.append_eq_nil_iff] at htokens
    rw [ih htokens.2, ihcs htokens.1]

/-- Trees that have tokens start with the token that is seen first. -/
theorem first (h : Reads q i ts q' j) (htokens : Tree.tokensOf ts ≠ []) :
    ∃ t p rest b, i.look = some ⟨some t, p, rest⟩ ∧ rest = b ++ j.rest ∧
      j.position = p.advance b := by
  induction h with
  | nil => exact absurd rfl htokens
  | leaf hlook _ hothers =>
    obtain ⟨b, hb, hj⟩ := hothers.consumed
    exact ⟨_, _, _, b, hlook, hb, hj⟩
  | @node q q₁ q₂ q₃ i j k s r cs ts hcs _ _ _ _ _ hothers ihcs ih =>
    by_cases hnil : Tree.tokensOf cs = []
    · rw [hcs.place_eq hnil] at ih
      refine ih fun hts => htokens ?_
      rw [Tree.tokensOf, Tree.tokens, hnil, hts, List.append_nil]
    · obtain ⟨t, p, rest, b, hlook, hb, hj⟩ := ihcs hnil
      obtain ⟨b', hb', hk⟩ := hothers.consumed
      exact ⟨t, p, rest, b ++ b', hlook, by rw [hb, hb', List.append_assoc],
        by rw [hk, hj, Position.advance_append]⟩

/-- Trees that have tokens end with a token, and the last place is behind that. -/
theorem last (h : Reads q i ts q' j) (htokens : Tree.tokensOf ts ≠ []) :
    ∃ t x, (Tree.tokensOf ts).getLast? = some t ∧ i.rest = x ++ (t.text ++ j.rest) ∧
      t.terminal.lexeme? (t.text ++ j.rest) = some t.text.length ∧ t.text ≠ [] := by
  induction h with
  | nil => exact absurd rfl htokens
  | @leaf q q₁ q₂ i j t p rest ts hlook hshift hothers ih =>
    obtain ⟨hrest, -, -⟩ := Place.scan_of_look hlook
    obtain ⟨-, hne, hlexeme, -, -⟩ := Place.token_of_look hlook
    rw [Tree.tokensOf, Tree.tokens, List.singleton_append]
    by_cases hnil : Tree.tokensOf ts = []
    · rw [hothers.place_eq hnil, hnil]
      exact ⟨t, i.gap, rfl, hrest, hlexeme, hne⟩
    · obtain ⟨u, x, hlast, hx, hu⟩ := ih hnil
      refine ⟨u, i.gap ++ t.text ++ x, ?_, ?_, hu⟩
      · rw [List.getLast?_cons, hlast]
        rfl
      · rw [hrest, show rest = _ from hx, List.append_assoc, List.append_assoc]
  | @node q q₁ q₂ q₃ i j k s r cs ts hcs _ _ _ _ _ hothers ihcs ih =>
    rw [Tree.tokensOf, Tree.tokens, List.getLast?_append]
    by_cases hnil : Tree.tokensOf ts = []
    · rw [hothers.place_eq hnil, hnil]
      refine ihcs fun hcsnil => htokens ?_
      rw [Tree.tokensOf, Tree.tokens, hcsnil, hnil]
      rfl
    · obtain ⟨u, x, hlast, hx, hu⟩ := ih hnil
      obtain ⟨a, ha, -⟩ := hcs.consumed
      exact ⟨u, a ++ x, by rw [hlast]; rfl, by rw [ha, hx, List.append_assoc], hu⟩

/-- Trees that have tokens extend from behind the first gap to the last place. -/
theorem extent (h : Reads q i ts q' j) (htokens : Tree.tokensOf ts ≠ []) :
    Tree.extentOf (Tree.tokensOf ts) = some ⟨i.position.advance i.gap, j.position⟩ := by
  induction h with
  | nil => exact absurd rfl htokens
  | @leaf q q₁ q₂ i j t p rest ts hlook hshift hothers ih =>
    obtain ⟨-, -, -, hspan, -⟩ := Place.token_of_look hlook
    rw [Tree.tokensOf, Tree.tokens, List.singleton_append, Tree.extentOf, hspan]
    by_cases hnil : Tree.tokensOf ts = []
    · rw [hothers.place_eq hnil, hnil]
      rfl
    · rw [ih hnil]
      rfl
  | @node q q₁ q₂ q₃ i j k s r cs ts hcs _ _ _ _ _ hothers ihcs ih =>
    rw [Tree.tokensOf, Tree.tokens, Tree.extentOf_append]
    by_cases hcsnil : Tree.tokensOf cs = []
    · rw [hcs.place_eq hcsnil] at ih
      rw [hcsnil, ih]
      · rfl
      · intro hts
        exact htokens (by rw [Tree.tokensOf, Tree.tokens, hcsnil, hts, List.append_nil])
    · rw [ihcs hcsnil]
      by_cases hnil : Tree.tokensOf ts = []
      · rw [hothers.place_eq hnil, hnil]
        rfl
      · rw [ih hnil]
        rfl

/-- What trees that have tokens pass is the gap before them and then their text. -/
theorem body (h : Reads q i ts q' j) (htokens : Tree.tokensOf ts ≠ []) :
    ∃ b, i.rest = i.gap ++ (b ++ j.rest) ∧ StartsToken (b ++ j.rest) ∧ b ≠ [] ∧
      j.position = i.position.advance (i.gap ++ b) := by
  obtain ⟨t, p, rest, b, hlook, rfl, hj⟩ := h.first htokens
  obtain ⟨hrest, -, -⟩ := Place.scan_of_look hlook
  obtain ⟨-, hne, -, -, hp⟩ := Place.token_of_look hlook
  have hne' : t.text ++ b ≠ [] := fun hnil => hne (List.append_eq_nil_iff.1 hnil).1
  refine ⟨t.text ++ b, by rw [hrest, List.append_assoc], ⟨?_, ?_⟩, hne', ?_⟩
  · exact fun hnil => hne' (List.append_eq_nil_iff.1 hnil).1
  · have htrivia := triviaLength_drop_gap 0 i.rest
    change triviaLength (i.rest.drop i.gap.length) = 0 at htrivia
    rwa [hrest, List.drop_left, ← List.append_assoc] at htrivia
  · rw [hj, hp, ← Position.advance_append, List.append_assoc]

end Reads

/-! ## Places in a source -/

/-- A place is in a source: its position is that of the characters before it. -/
def Place.In (source : List Char) (i : Place) : Prop :=
  ∃ x, source = x ++ i.rest ∧ i.position = Position.start.advance x

namespace Place.In

variable {source : List Char} {i : Place}

theorem start (source : List Char) : (Place.start source).In source := ⟨[], rfl, rfl⟩

theorem reads {q q' : State} {j : Place} {ts : List Tree} (hi : i.In source)
    (h : Reads q i ts q' j) : j.In source := by
  obtain ⟨x, hx, hpos⟩ := hi
  obtain ⟨a, ha, hj⟩ := h.consumed
  exact ⟨x ++ a, by rw [hx, ha, List.append_assoc], by rw [hj, hpos, Position.advance_append]⟩

/-- The source from the position of a place on is what is left at the place. -/
theorem drop_offset (hi : i.In source) : source.drop i.position.offset = i.rest := by
  obtain ⟨x, hx, hpos⟩ := hi
  rw [hpos, Position.offset_advance, hx, Position.start, Nat.zero_add, List.drop_left]

/-- The text between two positions behind a place. -/
theorem text {g b c : List Char} (hi : i.In source) (hrest : i.rest = g ++ (b ++ c)) :
    (Span.mk (i.position.advance g) (i.position.advance (g ++ b))).text source = b := by
  have hdrop := hi.drop_offset
  unfold Span.text
  rw [Position.offset_advance, Position.offset_advance, ← List.drop_drop, hdrop, hrest,
    List.drop_left, List.length_append,
    show i.position.offset + (g.length + b.length) - (i.position.offset + g.length) = b.length by
      omega, List.take_left]

end Place.In

/-- The extent of what is read from a source is that of the characters passed behind the gap. -/
theorem Reads.text {q q' : State} {i j : Place} {ts : List Tree} {source g b : List Char}
    {own : List Part} {span : Span} (h : Reads q i ts q' j) (hi : i.In source)
    (hparts : Tree.partsOf ts = .ok (own, some span)) (hgap : i.gap = g)
    (hrest : i.rest = g ++ (b ++ j.rest)) : span.text source = b ∧ span.stop = j.position := by
  have hextent := Tree.span_of_partsOf hparts
  have htokens : Tree.tokensOf ts ≠ [] := by
    intro hnil
    rw [hnil] at hextent
    contradiction
  obtain ⟨b', hb', -, -, hstop⟩ := h.body htokens
  obtain rfl : b' = b := by
    rw [hgap, hrest] at hb'
    exact (List.append_left_inj _).1 (List.append_cancel_left hb').symm
  rw [h.extent htokens, hstop] at hextent
  obtain rfl := Option.some.inj hextent
  exact ⟨hi.text hb', hstop.symm⟩

/-! ## Trees inside trees -/

namespace Tree

/-- A tree stands in another one. -/
inductive Within : Tree → Tree → Prop where
  | self (t : Tree) : Within t t
  | child {u t : Tree} {c : Category} {l : Construct} {ts : List Tree} (mem : t ∈ ts)
      (within : Within u t) : Within u (.node c l ts)

/-- The members of a series stand in it. -/
theorem Within.member {c : Category} {t u : Tree} (h : u ∈ t.members c) : Within u t := by
  match t with
  | leaf tok =>
    rw [members, List.mem_singleton] at h
    rw [h]
    exact .self _
  | node c' l ts =>
    rw [members] at h
    split at h
    · obtain ⟨t, ht, hu⟩ := mem_membersOf.1 h
      exact .child ht (Within.member hu)
    · rw [List.mem_singleton] at h
      rw [h]
      exact .self _

end Tree

/-- A tree inside one of those that are read is read itself. -/
theorem Reads.within {q q' : State} {i j : Place} {ts : List Tree} (h : Reads q i ts q' j)
    (hq : q ∈ State.all) {source : List Char} (hi : i.In source) {t u : Tree} (ht : t ∈ ts)
    (hu : u.Within t) :
    ∃ q₁ i₁ q₂ j₁, q₁ ∈ State.all ∧ i₁.In source ∧ Reads q₁ i₁ [u] q₂ j₁ := by
  induction h generalizing t with
  | nil => contradiction
  | leaf hlook hshift hothers ih =>
    rcases List.mem_cons.1 ht with rfl | ht
    · cases hu
      exact ⟨_, _, _, _, hq, hi, .leaf hlook hshift (.nil _ _)⟩
    · have hread : Reads _ _ [_] _ _ := .leaf hlook hshift (.nil _ _)
      exact ih (hread.mem_all hq) (hi.reads hread) ht hu
  | node hcs hlook hr hsize hinner hgoto hothers ihcs ih =>
    have hread : Reads _ _ [_] _ _ := .node hcs hlook hr hsize hinner hgoto (.nil _ _)
    rcases List.mem_cons.1 ht with rfl | ht
    · cases hu with
      | self => exact ⟨_, _, _, _, hq, hi, hread⟩
      | child hmem hu => exact ihcs hq hi hmem hu
    · exact ih (hread.mem_all hq) (hi.reads hread) ht hu

end TypedLinks.Luau
