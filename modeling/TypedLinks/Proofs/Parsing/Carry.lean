import TypedLinks.Proofs.Parsing.Extent
import TypedLinks.Proofs.Syntax.Unplaced

/-!
# Carrying a piece of a source

The trees that are read up to a token of a piece of a source are read again, apart from the places of
their tokens, where the piece stands in front of another continuation: if no token crosses the end
of the piece, and brackets that it leaves open stay open.
-/

namespace TypedLinks.Luau

open Lexeme

/-! ## Tokens of a piece -/

theorem Stops.suffix {x b w : List Char} (h : Stops (x ++ b) w) : Stops b w := by
  refine ⟨h.1, fun ⟨hlast, hhead⟩ => h.2 ⟨?_, hhead⟩⟩
  rw [List.getLast?_append, hlast]
  rfl

/-- The start of a piece stays the start of a token. -/
theorem StartsToken.carry {b v w : List Char} (h : StartsToken (b ++ v)) (hb : b ≠ [])
    (hstop : Stops b w) : StartsToken (b ++ w) := by
  obtain ⟨c, b, rfl⟩ := List.exists_cons_of_ne_nil hb
  obtain ⟨hcomment, hspace⟩ := triviaLength_eq_zero_iff.1 h.2
  refine ⟨List.cons_ne_nil _ _, triviaLength_eq_zero_iff.2 ⟨?_, hspace⟩⟩
  rw [comment?_eq_none_iff] at hcomment ⊢
  rintro rest heq
  cases b with
  | nil =>
    have hw : w.head? = some '-' := by
      obtain rfl : w = '-' :: rest := (List.cons.inj heq).2
      rfl
    exact absurd (hstop.1 _ hw) (by decide)
  | cons d b =>
    cases heq
    exact hcomment _ rfl

/-! ## Places in a piece -/

/-- At a place the next token ends before a continuation. -/
def Place.Inside (v : List Char) (i : Place) : Prop := ∃ t p c, i.look = some ⟨some t, p, c ++ v⟩

/-- Two places see the same token, which ends in the piece that is before either continuation. -/
def Twin (b v w : List Char) (i i' : Place) : Prop :=
  ∃ t t' p p' c, i.look = some ⟨some t, p, c ++ v⟩ ∧ i'.look = some ⟨some t', p', c ++ w⟩ ∧
    t'.unplaced = t.unplaced ∧ ∃ x, b = x ++ c

section Piece

variable {b v w c : List Char} {q q' : State} {i i' j : Place} {ts : List Tree}

theorem Twin.look (h : Twin b v w i i') {t : Token} {p : Position} {rest : List Char}
    (hlook : i.look = some ⟨some t, p, rest⟩) :
    ∃ t' p' c, rest = c ++ v ∧ i'.look = some ⟨some t', p', c ++ w⟩ ∧ t'.unplaced = t.unplaced ∧
      ∃ x, b = x ++ c := by
  obtain ⟨u, t', p₁, p', c, hlook₁, hlook', hsame, hsuffix⟩ := h
  rw [hlook] at hlook₁
  cases hlook₁
  exact ⟨t', p', c, rfl, hlook', hsame, hsuffix⟩

/-- The last token of a piece is read in front of another continuation as well. -/
theorem Twin.reads_last (h : Twin b v w i i') {t : Token} {p : Position}
    (hlook : i.look = some ⟨some t, p, v⟩) (hshift : q.shift? t.terminal = some q') :
    ∃ u p', Reads q i' [.leaf u] q' ⟨q', p', w⟩ ∧ u.unplaced = t.unplaced := by
  obtain ⟨u, p', c, hrest, hlook', hsame, -⟩ := h.look hlook
  obtain rfl : c = [] := by simpa using hrest
  rw [← (Token.unplaced_eq_iff.1 hsame).1] at hshift
  exact ⟨u, p', .leaf hlook' hshift (.nil _ _), hsame⟩

/-- What is read to a place in a piece starts in the piece. -/
theorem Reads.inside (h : Reads q i ts q' j) (hj : j.Inside v) : i.Inside v := by
  by_cases htokens : Tree.tokensOf ts = []
  · rwa [h.place_eq htokens] at hj
  · obtain ⟨t, p, rest, x, hlook, rfl, -⟩ := h.first htokens
    obtain ⟨u, p', c, hj⟩ := hj
    obtain ⟨hrest, -, -⟩ := Place.scan_of_look hj
    exact ⟨t, p, x ++ (j.gap ++ (u.text ++ c)), by rw [hlook, hrest]; simp⟩

/-- Two places with a piece left that has a token see the same. -/
theorem twin_of_inside (hstop : Stops b w) (hopen : KeepsOpen b v w) {s : State}
    {p p' : Position} (hsuffix : ∃ x, b = x ++ c) (h : Place.Inside v ⟨s, p, c ++ v⟩) :
    Twin b v w ⟨s, p, c ++ v⟩ ⟨s, p', c ++ w⟩ := by
  obtain ⟨x, rfl⟩ := hsuffix
  obtain ⟨u, r, d, hlook⟩ := h
  obtain ⟨hrest, hscan, -⟩ := Place.scan_of_look hlook
  obtain ⟨-, hne, -, -, -⟩ := Place.token_of_look hlook
  have hc : c = Place.gap ⟨s, p, c ++ v⟩ ++ (u.text ++ d) := by
    refine (List.append_left_inj v).1 ?_
    rw [List.append_assoc, List.append_assoc]
    exact hrest
  generalize hg : Place.gap ⟨s, p, c ++ v⟩ = g at hc hscan
  subst hc
  have hne' : u.text ++ d ≠ [] := fun h => hne (List.append_eq_nil_iff.1 h).1
  have hstop' : Stops (u.text ++ d) w := hstop.suffix.suffix
  have hopen' : KeepsOpen (u.text ++ d) v w := hopen.suffix.suffix
  have hv : StartsToken (u.text ++ d ++ v) := by
    refine ⟨fun h => hne' (List.append_eq_nil_iff.1 h).1, ?_⟩
    have htrivia := triviaLength_drop_gap 0 (g ++ (u.text ++ d) ++ v)
    rwa [show gap 0 (g ++ (u.text ++ d) ++ v) = g from hg, List.append_assoc, List.drop_left]
      at htrivia
  have hgap : gap 0 (g ++ (u.text ++ d) ++ w) = g := by
    rw [List.append_assoc]
    refine gap_carry hv (hv.carry hne' hstop') ?_ (by rw [← List.append_assoc]; exact hg)
    exact hopen.suffix.initial
  rw [← List.append_assoc u.text] at hscan
  have hscan' := scan_carry (r := p'.advance g) hstop' hopen' hscan
  have hlook' := Place.look_of_scan (i := ⟨s, p', g ++ (u.text ++ d) ++ w⟩)
    (List.append_assoc _ _ _) hgap hscan'
  exact ⟨_, _, _, _, d, hlook, hlook', rfl, x ++ g ++ u.text, by simp⟩

/-- The trees that are read from a piece are read in front of another continuation as well. -/
theorem Reads.carry (hstop : Stops b w) (hopen : KeepsOpen b v w) (h : Reads q i ts q' j)
    (hi : Twin b v w i i') (hj : j.Inside v) :
    ∃ ts' j', Reads q i' ts' q' j' ∧ Tree.unplacedOf ts' = Tree.unplacedOf ts ∧
      Twin b v w j j' := by
  induction h generalizing i' with
  | nil q i => exact ⟨[], i', .nil _ _, rfl, hi⟩
  | leaf hlook hshift hothers ih =>
    obtain ⟨u, p', c, rfl, hlook', hsame, hsuffix⟩ := hi.look hlook
    obtain ⟨ts', j', hreads, hts, hjj⟩ :=
      ih (twin_of_inside hstop hopen hsuffix (hothers.inside hj)) hj
    refine ⟨.leaf u :: ts', j', .leaf hlook' ?_ hreads, ?_, hjj⟩
    · rw [(Token.unplaced_eq_iff.1 hsame).1]
      exact hshift
    · rw [Tree.unplacedOf, Tree.unplacedOf, Tree.unplaced, Tree.unplaced, hsame, hts]
  | node hcs hlook hr hsize hinner hgoto hothers ihcs ih =>
    obtain ⟨cs', j', hreads, hcs', hjj⟩ := ihcs hi (hothers.inside hj)
    obtain ⟨ts', k', hreads', hts', hkk⟩ := ih hjj hj
    obtain ⟨t, t', p, p', c, hlook₁, hlook', hsame, -⟩ := hjj
    obtain rfl := Option.some.inj (hlook.symm.trans hlook₁)
    refine ⟨.node _ _ cs' :: ts', k', .node hreads hlook' ?_ ?_ hinner hgoto hreads', ?_, hkk⟩
    · rw [Sight.terminal, Option.map_some, (Token.unplaced_eq_iff.1 hsame).1]
      exact hr
    · rw [Tree.length_of_unplacedOf_eq hcs', hsize]
    · rw [Tree.unplacedOf, Tree.unplacedOf, Tree.unplaced, Tree.unplaced, hcs', hts']

/-- Where a piece is read from its start, the first token is seen in front of another continuation
too, whatever gap precedes the piece. -/
theorem twin_of_body {g : List Char} (hstop : Stops b w) (hopen : KeepsOpen b v w)
    (hbody : i.rest = i.gap ++ (b ++ v)) (hi : i.Inside v) (hrest : i'.rest = g ++ (b ++ w))
    (hgap : i'.gap = g) (hscanner : i'.scanner = i.scanner) : Twin b v w i i' := by
  obtain ⟨t, p, c, hlook⟩ := hi
  obtain ⟨hsplit, hscan, -⟩ := Place.scan_of_look hlook
  have hb : b = t.text ++ c := by
    refine (List.append_left_inj v).1 ?_
    rw [List.append_assoc]
    exact List.append_cancel_left (hbody.symm.trans hsplit)
  subst hb
  rw [← List.append_assoc] at hscan
  have hscan' := scan_carry (r := i'.position.advance g) hstop hopen hscan
  rw [← hscanner] at hscan'
  exact ⟨t, _, p, _, c, hlook, Place.look_of_scan hrest hgap hscan', rfl, t.text, rfl⟩

end Piece

end TypedLinks.Luau
