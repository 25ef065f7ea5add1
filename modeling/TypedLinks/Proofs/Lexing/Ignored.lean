import TypedLinks.Proofs.Lexing.Trivia

/-!
# Lexemes that are no tokens

A gap is a row of lexemes: runs of white space and comments, each as it is read in front of the others.
What such a row is does not depend on the continuation behind it, except that the row goes on where
the continuation does.
-/

namespace TypedLinks.Luau

open Lexeme

/-! ## One lexeme -/

/-- A run covers a piece exactly if the class holds in the piece and ends with it. -/
theorem run_append_eq_length_iff {p : Char → Bool} {a cs : List Char} :
    run p (a ++ cs) = a.length ↔
      (∀ c ∈ a, p c = true) ∧ ∀ c, cs.head? = some c → p c = false := by
  induction a with
  | nil => cases cs <;> simp [run_cons]
  | cons c a ih =>
    rw [List.cons_append, run_cons, List.forall_mem_cons]
    by_cases hc : p c = true
    · simp [hc, ih]
    · simp [hc]

theorem space?_eq_some_iff {cs : List Char} {n : Nat} :
    space? cs = some n ↔ run isSpace cs = n ∧ n ≠ 0 := by
  unfold space?
  dsimp only
  split <;> simp <;> omega

theorem space?_bounds {cs : List Char} {n : Nat} (h : space? cs = some n) :
    0 < n ∧ n ≤ cs.length := by
  obtain ⟨rfl, hn⟩ := space?_eq_some_iff.1 h
  exact ⟨Nat.pos_of_ne_zero hn, run_le_length _ cs⟩

theorem comment?_bounds {cs : List Char} {n : Nat} (h : comment? cs = some n) :
    0 < n ∧ n ≤ cs.length := by
  unfold comment? at h
  split at h
  · rename_i cs
    obtain rfl := Option.some.inj h
    have hle : (longBracket? cs).getD (run (· ≠ '\n') cs) ≤ cs.length := by
      cases hl : longBracket? cs with
      | none => exact run_le_length _ cs
      | some n => exact (longBracket?_bounds hl).2
    simp only [List.length_cons]
    omega
  · contradiction

/-- A character is not the first of a comment and of white space. -/
theorem comment?_of_space? {cs : List Char} {n : Nat} (h : space? cs = some n) :
    comment? cs = none := by
  rw [comment?_eq_none_iff]
  rintro rest rfl
  obtain ⟨hrun, hn⟩ := space?_eq_some_iff.1 h
  apply hn
  rw [← hrun, run_cons, if_neg (by decide)]

theorem triviaLength_of_comment? {cs : List Char} {n : Nat} (h : comment? cs = some n) :
    triviaLength cs = n := by
  rw [triviaLength, h, Option.getD_some]

theorem triviaLength_of_space? {cs : List Char} {n : Nat} (h : space? cs = some n) :
    triviaLength cs = n := by
  rw [triviaLength, comment?_of_space? h, h, Option.getD_none, Option.getD_some]

theorem run_shorten {p : Char → Bool} {a b rest : List Char}
    (h : run p (a ++ (b ++ rest)) = a.length) : run p (a ++ b) = a.length := by
  obtain ⟨ha, hnext⟩ := run_append_eq_length_iff.1 h
  apply run_append_eq_length_iff.2
  refine ⟨ha, ?_⟩
  intro c hc
  apply hnext
  rw [List.head?_append, hc]
  rfl

theorem space?_shorten {a b rest : List Char}
    (h : space? (a ++ (b ++ rest)) = some a.length) : space? (a ++ b) = some a.length := by
  obtain ⟨hrun, hn⟩ := space?_eq_some_iff.1 h
  exact space?_eq_some_iff.2 ⟨run_shorten hrun, hn⟩

theorem longBracket?_shorten {a b rest : List Char} {n : Nat} (hn : n ≤ a.length)
    (h : longBracket? (a ++ (b ++ rest)) = some n) : longBracket? (a ++ b) = some n := by
  have hclosed := longBracket?_take_append h (a.drop n ++ b)
  rwa [List.take_append_of_le_length hn, ← List.append_assoc, List.take_append_drop] at hclosed

/-- A bracket that is closed is closed in front of any continuation. -/
theorem longBracket?_eq_none_shorten {b rest : List Char} (h : longBracket? (b ++ rest) = none) :
    longBracket? b = none := by
  cases hb : longBracket? b with
  | none => rfl
  | some n =>
    have hclosed := longBracket?_take_append hb (b.drop n ++ rest)
    rw [← List.append_assoc, List.take_append_drop, h] at hclosed
    contradiction

/-- A comment is two dashes and a long bracket, or what is left of the line. -/
theorem comment?_append_eq_length_iff {a cs : List Char} :
    comment? (a ++ cs) = some a.length ↔
      ∃ b, a = '-' :: '-' :: b ∧
        (longBracket? (b ++ cs)).getD (run (· ≠ '\n') (b ++ cs)) = b.length := by
  constructor
  · intro h
    unfold comment? at h
    split at h
    · rename_i ds hds
      have hlength := Option.some.inj h
      match a, hds with
      | [], _ => simp at hlength
      | [_], _ =>
        simp at hlength
        omega
      | c :: d :: b, hds =>
        obtain ⟨hc, htail⟩ := List.cons.inj hds
        obtain ⟨hd, hrest⟩ := List.cons.inj htail
        subst hc hd
        obtain rfl : b ++ cs = ds := hrest
        refine ⟨b, rfl, ?_⟩
        simp only [List.length_cons] at hlength
        omega
    · contradiction
  · rintro ⟨b, rfl, hb⟩
    rw [List.cons_append, List.cons_append, comment?, hb, List.length_cons, List.length_cons,
      Nat.add_comm]

theorem comment?_shorten {a b rest : List Char}
    (h : comment? (a ++ (b ++ rest)) = some a.length) : comment? (a ++ b) = some a.length := by
  obtain ⟨a, rfl, ha⟩ := comment?_append_eq_length_iff.1 h
  apply comment?_append_eq_length_iff.2
  refine ⟨a, rfl, ?_⟩
  cases hl : longBracket? (a ++ (b ++ rest)) with
  | some n =>
    rw [hl, Option.getD_some] at ha
    rw [longBracket?_shorten (Nat.le_of_eq ha) hl, Option.getD_some, ha]
  | none =>
    rw [hl, Option.getD_none] at ha
    rw [← List.append_assoc] at hl
    rw [longBracket?_eq_none_shorten hl, Option.getD_none]
    exact run_shorten ha

/-! ## Rows of lexemes -/

/-- A text is a row of lexemes that are no tokens, runs of white space and comments, as they are read
in front of a continuation. -/
inductive Ignored (rest : List Char) : List Char → Prop where
  | nil : Ignored rest []
  | space {a b : List Char} (lexeme : space? (a ++ (b ++ rest)) = some a.length)
      (others : Ignored rest b) : Ignored rest (a ++ b)
  | comment {a b : List Char} (lexeme : comment? (a ++ (b ++ rest)) = some a.length)
      (others : Ignored rest b) : Ignored rest (a ++ b)

theorem gap_length_append (a cs : List Char) : gap a.length (a ++ cs) = a ++ gap 0 cs := by
  induction a with
  | nil => rfl
  | cons c a ih => rw [List.length_cons, List.cons_append, gap_succ_cons, ih, List.cons_append]

/-- A gap starts with its first lexeme. -/
theorem gap_append_of_triviaLength {a cs : List Char} (h : triviaLength (a ++ cs) = a.length) :
    gap 0 (a ++ cs) = a ++ gap 0 cs := by
  cases a with
  | nil => rfl
  | cons c a =>
    rw [List.cons_append] at h ⊢
    rw [gap_zero_cons h, gap_length_append, List.cons_append]

/-- White space in front of no trivia is the gap there. -/
theorem gap_of_spaces {g cs : List Char} (hg : ∀ c ∈ g, isSpace c = true)
    (h : triviaLength cs = 0) : gap 0 (g ++ cs) = g := by
  have hgap : gap 0 (g ++ cs) = g ++ gap 0 cs := by
    cases g with
    | nil => rfl
    | cons c g =>
      apply gap_append_of_triviaLength
      apply triviaLength_of_space?
      apply space?_eq_some_iff.2
      refine ⟨run_append_eq_length_iff.2 ⟨hg, ?_⟩, Nat.succ_ne_zero _⟩
      exact (triviaLength_eq_zero_iff.1 h).2
  rw [hgap, gap_zero_of_triviaLength h, List.append_nil]

/-- A gap is a row of lexemes. -/
theorem ignored_gap (cs : List Char) : Ignored (cs.drop (gap 0 cs).length) (gap 0 cs) := by
  induction hn : cs.length using Nat.strongRecOn generalizing cs with
  | ind n ih =>
    have hstep {m : Nat} (hm : triviaLength cs = m) (hpos : 0 < m) (hle : m ≤ cs.length) :
        ∃ a b, cs = a ++ b ∧ a.length = m ∧ gap 0 cs = a ++ gap 0 b ∧
          Ignored (b.drop (gap 0 b).length) (gap 0 b) := by
      have hlength : (cs.take m).length = m := List.length_take_of_le hle
      refine ⟨cs.take m, cs.drop m, (List.take_append_drop m cs).symm, hlength, ?_, ?_⟩
      · have hsplit := @gap_append_of_triviaLength (cs.take m) (cs.drop m)
        rw [List.take_append_drop] at hsplit
        exact hsplit (hm.trans hlength.symm)
      · refine ih (cs.drop m).length ?_ (cs.drop m) rfl
        rw [List.length_drop]
        omega
    cases hcomment : comment? cs with
    | some m =>
      have hbounds := comment?_bounds hcomment
      obtain ⟨a, b, rfl, rfl, hgap, hb⟩ :=
        hstep (triviaLength_of_comment? hcomment) hbounds.1 hbounds.2
      rw [hgap, List.length_append, ← List.drop_drop, List.drop_left]
      exact .comment (by rwa [gap_append_drop]) hb
    | none =>
      cases hspace : space? cs with
      | some m =>
        have hbounds := space?_bounds hspace
        obtain ⟨a, b, rfl, rfl, hgap, hb⟩ :=
          hstep (triviaLength_of_space? hspace) hbounds.1 hbounds.2
        rw [hgap, List.length_append, ← List.drop_drop, List.drop_left]
        exact .space (by rwa [gap_append_drop]) hb
      | none =>
        rw [gap_zero_of_triviaLength (by rw [triviaLength, hcomment, hspace]; rfl)]
        exact .nil

namespace Ignored

variable {rest w : List Char}

/-- A row of lexemes is one in front of the start of its continuation. -/
theorem shorten {rest' : List Char} (h : Ignored (rest ++ rest') w) : Ignored rest w := by
  induction h with
  | nil => exact .nil
  | space hlexeme _ ih =>
    rw [← List.append_assoc _ rest] at hlexeme
    exact .space (space?_shorten hlexeme) ih
  | comment hlexeme _ ih =>
    rw [← List.append_assoc _ rest] at hlexeme
    exact .comment (comment?_shorten hlexeme) ih

theorem alone (h : Ignored rest w) : Ignored [] w := shorten h

end Ignored

end TypedLinks.Luau
