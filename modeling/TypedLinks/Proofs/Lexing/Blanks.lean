import TypedLinks.Proofs.Lexing.Ignored
import TypedLinks.Proofs.Lexing.Scanning

/-!
# Blanks for comments

A gap with a space in the place of each of its comments, and what the lexer sees of such a change
behind a token. A lexeme never holds a space unless it is closed by a quote or a bracket, so those
that are not reach as far as before. A bracket that was not closed stays so: what could close it has
no space in it, and stood in the text before.
-/

namespace TypedLinks.Luau

open Lexeme

/-! ## Gaps without comments -/

/-- The gap at the start of a text with a space for each comment; the first `pending` characters are
known to belong to a comment that has its space. -/
def blankGap : Nat → List Char → List Char
  | _, [] => []
  | pending + 1, _ :: cs => blankGap pending cs
  | 0, c :: cs =>
    match comment? (c :: cs) with
    | some n => ' ' :: blankGap (n - 1) cs
    | none => if isSpace c then c :: blankGap 0 cs else []

theorem blankGap_of_triviaLength {cs : List Char} (h : triviaLength cs = 0) :
    blankGap 0 cs = [] := by
  obtain ⟨hcomment, hspace⟩ := triviaLength_eq_zero_iff.1 h
  cases cs with
  | nil => rfl
  | cons c cs => rw [blankGap, hcomment, hspace c rfl, if_neg Bool.false_ne_true]

theorem blankGap_length_append (a cs : List Char) :
    blankGap a.length (a ++ cs) = blankGap 0 cs := by
  induction a with
  | nil => rfl
  | cons c a ih => rw [List.length_cons, List.cons_append, blankGap, ih]

theorem blankGap_comment {a cs : List Char} (h : comment? (a ++ cs) = some a.length) :
    blankGap 0 (a ++ cs) = ' ' :: blankGap 0 cs := by
  cases a with
  | nil => exact absurd (comment?_bounds h).1 (Nat.lt_irrefl 0)
  | cons c a =>
    rw [List.cons_append] at h ⊢
    rw [blankGap, h]
    dsimp only
    rw [List.length_cons, Nat.add_sub_cancel, blankGap_length_append]

theorem blankGap_space {a cs : List Char} (h : space? (a ++ cs) = some a.length) :
    blankGap 0 (a ++ cs) = a ++ blankGap 0 cs := by
  have hspaces := (run_append_eq_length_iff.1 (space?_eq_some_iff.1 h).1).1
  clear h
  induction a with
  | nil => rfl
  | cons c a ih =>
    rw [List.forall_mem_cons] at hspaces
    have hcomment : comment? (c :: (a ++ cs)) = none := by
      rw [comment?_eq_none_iff]
      rintro rest heq
      rw [(List.cons.inj heq).1] at hspaces
      exact absurd hspaces.1 (by decide)
    rw [List.cons_append, blankGap, hcomment]
    dsimp only
    rw [if_pos hspaces.1, ih hspaces.2, List.cons_append]

/-- What holds behind a gap holds of the gap and of the gap without comments, if each of its lexemes
keeps it. -/
theorem blankGap_induction {motive : List Char → List Char → Prop} {cs r' : List Char}
    (space : ∀ {a b b' : List Char}, space? (a ++ b) = some a.length → motive b b' →
      motive (a ++ b) (a ++ b'))
    (comment : ∀ {a b b' : List Char}, comment? (a ++ b) = some a.length → motive b b' →
      motive (a ++ b) (' ' :: b'))
    (behind : motive (cs.drop (gap 0 cs).length) r') : motive cs (blankGap 0 cs ++ r') := by
  have hrow {rest w : List Char} (hw : Ignored rest w) (hrest : triviaLength rest = 0)
      (h : motive rest r') : motive (w ++ rest) (blankGap 0 (w ++ rest) ++ r') := by
    induction hw with
    | nil => rwa [List.nil_append, blankGap_of_triviaLength hrest]
    | space hlexeme _ ih =>
      rw [List.append_assoc, blankGap_space hlexeme, List.append_assoc]
      exact space hlexeme ih
    | comment hlexeme _ ih =>
      rw [List.append_assoc, blankGap_comment hlexeme]
      exact comment hlexeme ih
  have hgap := hrow (ignored_gap cs) (triviaLength_drop_gap 0 cs) behind
  rwa [gap_append_drop] at hgap

/-- A gap without comments is white space. -/
theorem isSpace_of_mem_blankGap {cs : List Char} : ∀ c ∈ blankGap 0 cs, isSpace c = true := by
  have hgap := @blankGap_induction (fun _ w => ∀ c ∈ w, isSpace c = true) cs []
  rw [List.append_nil] at hgap
  apply hgap
  · intro a b b' hlexeme hb
    rw [List.forall_mem_append]
    exact ⟨(run_append_eq_length_iff.1 (space?_eq_some_iff.1 hlexeme).1).1, hb⟩
  · intro a b b' _ hb
    rw [List.forall_mem_cons]
    exact ⟨by decide, hb⟩
  · simp

/-! ## Texts with pieces replaced -/

/-- A text is another one with a space in the place of some of its pieces. -/
inductive Blanked : List Char → List Char → Prop where
  | nil : Blanked [] []
  | cons (c : Char) {r r' : List Char} (others : Blanked r r') : Blanked (c :: r) (c :: r')
  | blank (w : List Char) {r r' : List Char} (others : Blanked r r') : Blanked (w ++ r) (' ' :: r')

namespace Blanked

variable {r r' s d' x : List Char}

theorem refl (r : List Char) : Blanked r r := by
  induction r with
  | nil => exact .nil
  | cons c r ih => exact .cons c ih

theorem append_left (x : List Char) (h : Blanked r r') : Blanked (x ++ r) (x ++ r') := by
  induction x with
  | nil => exact h
  | cons c x ih => exact .cons c ih

/-- A gap keeps its place when its comments are replaced. -/
theorem gap {cs : List Char} (h : Blanked (cs.drop (gap 0 cs).length) r') :
    Blanked cs (blankGap 0 cs ++ r') :=
  blankGap_induction (fun _ hb => hb.append_left _) (fun _ hb => .blank _ hb) h

/-- What has no space in it and starts the new text starts the old one as well. -/
theorem of_prefix (h : Blanked r (s ++ d')) (hs : ∀ c ∈ s, c ≠ ' ') :
    ∃ d, r = s ++ d ∧ Blanked d d' := by
  induction s generalizing r with
  | nil => exact ⟨r, rfl, h⟩
  | cons c s ih =>
    rw [List.forall_mem_cons] at hs
    rw [List.cons_append] at h
    cases h with
    | cons _ hothers =>
      obtain ⟨d, rfl, hd⟩ := ih hothers hs.2
      exact ⟨d, rfl, hd⟩
    | blank => exact absurd rfl hs.1

/-- What has no space in it and stands in the new text stood in the old one. -/
theorem of_infix (h : Blanked r r') (hs : ∀ c ∈ s, c ≠ ' ') (hstands : s <:+: r') :
    s <:+: r := by
  have hprefix {r r' : List Char} (h : Blanked r r') (hs' : s <+: r') : s <:+: r := by
    obtain ⟨d', rfl⟩ := hs'
    obtain ⟨d, rfl, -⟩ := h.of_prefix hs
    exact (List.prefix_append s d).isInfix
  induction h with
  | nil => exact hstands
  | cons c hothers ih =>
    rcases List.infix_cons_iff.1 hstands with hstart | hlater
    · exact hprefix (.cons c hothers) hstart
    · exact (ih hlater).trans (List.suffix_cons c _).isInfix
  | blank w hothers ih =>
    rcases List.infix_cons_iff.1 hstands with hstart | hlater
    · exact hprefix (.blank w hothers) hstart
    · exact (ih hlater).trans (List.suffix_append w _).isInfix

/-- The texts are the same up to a space of the new one. -/
theorem common (h : Blanked r r') :
    ∃ x y y', r = x ++ y ∧ r' = x ++ y' ∧ (y' = [] ∧ y = [] ∨ y'.head? = some ' ') := by
  induction h with
  | nil => exact ⟨[], [], [], rfl, rfl, .inl ⟨rfl, rfl⟩⟩
  | cons c _ ih =>
    obtain ⟨x, y, y', rfl, rfl, hy⟩ := ih
    exact ⟨c :: x, y, y', rfl, rfl, hy⟩
  | @blank w r r' _ _ => exact ⟨[], w ++ r, ' ' :: r', rfl, rfl, .inr rfl⟩

theorem comment?_eq_none (h : Blanked r r') (hr : comment? r = none) : comment? r' = none := by
  rw [comment?_eq_none_iff] at hr ⊢
  rintro rest rfl
  obtain ⟨d, rfl, -⟩ := of_prefix (s := ['-', '-']) h (by simp)
  exact hr d rfl

end Blanked

/-! ## Brackets -/

theorem isSome_closeLong_iff {level : Nat} {cs : List Char} :
    (closeLong level cs).isSome = true ↔ closer level <:+: cs := by
  induction cs with
  | nil => simp [closeLong, closer]
  | cons c cs ih =>
    rw [closeLong, List.infix_cons_iff, ← ih, ← List.isPrefixOf_iff_prefix]
    split <;> simp_all

/-- The opening long bracket of a level. -/
def opener (level : Nat) : List Char := '[' :: (List.replicate level '=' ++ ['['])

theorem space_not_mem_opener (level : Nat) : ∀ c ∈ opener level, c ≠ ' ' := by
  rintro c hc rfl
  simp [opener] at hc

theorem space_not_mem_closer (level : Nat) : ∀ c ∈ closer level, c ≠ ' ' := by
  rintro c hc rfl
  simp [closer] at hc

theorem longLevel?_eq_some_iff_opener {cs : List Char} {level : Nat} :
    longLevel? cs = some level ↔ ∃ rest, cs = opener level ++ rest := by
  rw [longLevel?_eq_some_iff]
  simp [opener]

theorem longBracket?_opener (level : Nat) (rest : List Char) :
    longBracket? (opener level ++ rest) = (closeLong level rest).map (level + 2 + ·) := by
  have hlength : (opener level).length = level + 2 := by simp [opener]
  rw [longBracket?_eq, longLevel?_eq_some_iff_opener.2 ⟨rest, rfl⟩, Option.bind_some, ← hlength,
    List.drop_left]

theorem Blanked.longBracket?_eq_none {r r' : List Char} (h : Blanked r r')
    (hr : longBracket? r = none) : longBracket? r' = none := by
  cases hlevel : longLevel? r' with
  | none => rw [longBracket?_eq, hlevel, Option.bind_none]
  | some level =>
    obtain ⟨d', rfl⟩ := longLevel?_eq_some_iff_opener.1 hlevel
    obtain ⟨d, rfl, hd⟩ := h.of_prefix (space_not_mem_opener level)
    rw [longBracket?_opener, Option.map_eq_none_iff] at hr ⊢
    rw [← Option.not_isSome_iff_eq_none, isSome_closeLong_iff] at hr ⊢
    exact fun hcloser => hr (hd.of_infix (space_not_mem_closer level) hcloser)

/-! ## Tokens -/

theorem space_not_mem_spellings : ∀ t ∈ Terminal.all, ∀ s ∈ t.spellings, ' ' ∉ s := by decide

/-- A lexeme that is not closed by a quote or a bracket does not reach over a space. -/
theorem Terminal.le_of_lexeme?_space {t : Terminal} (ht : t.isFlat = true) {b y : List Char}
    (hb : b ≠ []) (hy : y = [] ∨ y.head? = some ' ') {n : Nat}
    (h : t.lexeme? (b ++ y) = some n) : n ≤ b.length := by
  rcases hy with rfl | hy
  · rw [List.append_nil] at h
    exact (lexeme?_bounds h).2
  refine Nat.le_of_not_lt fun hn => ?_
  have hmem := mem_take_append hb hy hn
  by_cases hname : t = .name
  · subst hname
    exact absurd (holds_name? _ _ h _ hmem) (by decide)
  by_cases hnumber : t = .number
  · subst hnumber
    exact absurd (isNumberPart_of_number? h (List.mem_of_mem_tail hmem)) (by decide)
  rw [lexeme?_eq_spelled? hname hnumber ht] at h
  obtain ⟨s, hs, htake, rfl⟩ := prefix_of_spelled? h
  rw [htake] at hmem
  exact space_not_mem_spellings t (mem_all t) s hs (List.mem_of_mem_tail hmem)

section Scan

variable {b r r' : List Char}

theorem StartsToken.blanked (h : StartsToken (b ++ r)) (hb : b ≠ []) (hr : Blanked r r') :
    StartsToken (b ++ r') := by
  obtain ⟨c, b, rfl⟩ := List.exists_cons_of_ne_nil hb
  obtain ⟨hcomment, hspace⟩ := triviaLength_eq_zero_iff.1 h.2
  exact ⟨List.cons_ne_nil _ _,
    triviaLength_eq_zero_iff.2 ⟨(hr.append_left (c :: b)).comment?_eq_none hcomment, hspace⟩⟩

/-- A token is scanned in front of a text with pieces replaced as it was in front of the text. -/
theorem scan_blanked {accepted : Terminal → Bool} {p q : Position} {t : Token}
    (h : scan accepted p (t.text ++ r) = some (t, r)) (hr : Blanked r r') :
    scan accepted q (t.text ++ r') = some (⟨t.terminal, t.text, ⟨q, q.advance t.text⟩⟩, r') := by
  obtain ⟨-, -, hne, hfound, -⟩ := lexeme?_of_scan h
  refine scan_congr (show scan accepted p (t.text ++ r) = some (t, [] ++ r) from h)
    fun t' hle => ?_
  refine Terminal.lexeme?_congr hne (hr.append_left t.text).longBracket?_eq_none hfound hle ?_
  intro hflat
  -- Up to the first new space the texts are the same, and no lexeme reaches it.
  obtain ⟨x, y, y', rfl, rfl, hy⟩ := hr.common
  have hne' : t.text ++ x ≠ [] := fun hnil => hne (List.append_eq_nil_iff.1 hnil).1
  rw [← List.append_assoc] at hle ⊢
  rw [← List.append_assoc]
  have hy' : y' = [] ∨ y'.head? = some ' ' := hy.imp_left And.left
  rw [Terminal.local_lexeme? hflat _ y' hne'
      fun n hn => Terminal.le_of_lexeme?_space hflat hne' hy' hn,
    Terminal.local_lexeme? hflat _ y hne' fun n hn => ?_]
  rw [List.length_append]
  exact Nat.le_trans (hle n hn) (Nat.le_add_right _ _)

end Scan

end TypedLinks.Luau
