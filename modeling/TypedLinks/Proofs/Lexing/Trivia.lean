import TypedLinks.Luau.Token
import TypedLinks.Proofs.Lexing.Closing

/-!
# White space and comments

What `skipTrivia` passes over, as a piece of the text: the gap before a token. A gap is the same in
front of any text that starts with a token, apart from long brackets that it opens and leaves open.
-/

namespace TypedLinks.Luau

open Lexeme

/-! ## Gaps -/

/-- The white space and the comments at the start of a text; the first `pending` characters are known
to belong to them. -/
def gap : Nat → List Char → List Char
  | _, [] => []
  | pending + 1, c :: cs => c :: gap pending cs
  | 0, c :: cs =>
    match triviaLength (c :: cs) with
    | 0 => []
    | n + 1 => c :: gap n cs

@[simp] theorem gap_nil (n : Nat) : gap n [] = [] := by cases n <;> rfl

@[simp] theorem gap_succ_cons (n : Nat) (c : Char) (cs : List Char) :
    gap (n + 1) (c :: cs) = c :: gap n cs := rfl

theorem gap_zero_of_triviaLength {cs : List Char} (h : triviaLength cs = 0) : gap 0 cs = [] := by
  cases cs with
  | nil => rfl
  | cons c cs =>
    rw [gap]
    split
    · rfl
    · rename_i n hn
      rw [hn] at h
      contradiction

theorem gap_zero_cons {c : Char} {cs : List Char} {n : Nat} (h : triviaLength (c :: cs) = n + 1) :
    gap 0 (c :: cs) = c :: gap n cs := by
  rw [gap]
  split
  · rename_i hn
    rw [hn] at h
    contradiction
  · rename_i m hm
    rw [hm] at h
    cases h
    rfl

theorem skipTrivia_eq (n : Nat) (p : Position) (cs : List Char) :
    skipTrivia n p cs = (p.advance (gap n cs), cs.drop (gap n cs).length) := by
  induction cs generalizing n p with
  | nil => cases n <;> rfl
  | cons c cs ih =>
    cases n with
    | succ n =>
      rw [skipTrivia, ih]
      rfl
    | zero =>
      rw [skipTrivia]
      split
      · rename_i hn
        rw [gap_zero_of_triviaLength hn]
        rfl
      · rename_i n hn
        rw [ih, gap_zero_cons hn]
        rfl

theorem gap_append_drop (n : Nat) (cs : List Char) :
    gap n cs ++ cs.drop (gap n cs).length = cs := by
  induction cs generalizing n with
  | nil => simp
  | cons c cs ih =>
    cases n with
    | succ n => simpa using ih n
    | zero =>
      cases hn : triviaLength (c :: cs) with
      | zero =>
        rw [gap_zero_of_triviaLength hn]
        rfl
      | succ n =>
        rw [gap_zero_cons hn]
        simpa using ih n

theorem min_le_length_gap (n : Nat) (cs : List Char) : min n cs.length ≤ (gap n cs).length := by
  induction cs generalizing n with
  | nil => exact Nat.min_le_right _ _
  | cons c cs ih =>
    cases n with
    | zero => exact Nat.le_trans (Nat.min_le_left _ _) (Nat.zero_le _)
    | succ n =>
      have := ih n
      rw [gap_succ_cons, List.length_cons, List.length_cons]
      omega

/-- Behind a gap there is no trivia. -/
theorem triviaLength_drop_gap (n : Nat) (cs : List Char) :
    triviaLength (cs.drop (gap n cs).length) = 0 := by
  induction cs generalizing n with
  | nil =>
    rw [List.drop_nil]
    rfl
  | cons c cs ih =>
    cases n with
    | succ n => simpa using ih n
    | zero =>
      cases hn : triviaLength (c :: cs) with
      | zero =>
        rw [gap_zero_of_triviaLength hn]
        exact hn
      | succ n =>
        rw [gap_zero_cons hn]
        simpa using ih n

/-! ## The start of a token -/

theorem comment?_eq_none_iff {cs : List Char} :
    comment? cs = none ↔ ∀ rest, cs ≠ '-' :: '-' :: rest := by
  unfold comment?
  split
  · rename_i rest
    exact ⟨fun h => by contradiction, fun h => absurd rfl (h rest)⟩
  · rename_i h
    exact ⟨fun _ rest heq => h rest heq, fun _ => rfl⟩

theorem triviaLength_comment (cs : List Char) :
    triviaLength ('-' :: '-' :: cs) = 2 + (longBracket? cs).getD (run (· ≠ '\n') cs) := rfl

theorem triviaLength_of_comment?_eq_none {cs : List Char} (h : comment? cs = none) :
    triviaLength cs = run isSpace cs := by
  rw [triviaLength, h, Option.getD_none, space?]
  by_cases h0 : run isSpace cs = 0
  · rw [if_pos h0, h0, Option.getD_none]
  · rw [if_neg h0, Option.getD_some]

theorem triviaLength_eq_zero_iff {cs : List Char} :
    triviaLength cs = 0 ↔ comment? cs = none ∧ ∀ c, cs.head? = some c → isSpace c = false := by
  constructor
  · intro h
    have hnone : comment? cs = none := by
      rw [comment?_eq_none_iff]
      rintro rest rfl
      rw [triviaLength_comment] at h
      omega
    refine ⟨hnone, fun c hc => ?_⟩
    obtain ⟨cs, rfl⟩ := List.head?_eq_some_iff.1 hc
    rw [triviaLength_of_comment?_eq_none hnone, run_cons] at h
    cases hspace : isSpace c with
    | false => rfl
    | true => simp [hspace] at h
  · rintro ⟨hnone, hspace⟩
    rw [triviaLength_of_comment?_eq_none hnone]
    cases cs with
    | nil => rfl
    | cons c cs => simp [run_cons, hspace c rfl]

/-! ## Moving a gap -/

theorem run_append_of_head {p : Char → Bool} {b w : List Char}
    (hw : ∀ c, w.head? = some c → p c = false) : run p (b ++ w) = run p b := by
  induction b with
  | nil =>
    cases w with
    | nil => rfl
    | cons c w => simp [run_cons, hw c rfl]
  | cons c b ih => rw [List.cons_append, run_cons, run_cons, ih]

theorem run_append_of_lt {p : Char → Bool} {b : List Char} (w : List Char)
    (h : run p b < b.length) : run p (b ++ w) = run p b := by
  induction b with
  | nil => contradiction
  | cons c b ih =>
    rw [List.cons_append, run_cons, run_cons]
    rw [run_cons] at h
    by_cases hc : p c
    · rw [if_pos hc, List.length_cons] at h
      rw [if_pos hc, if_pos hc, ih (by omega)]
    · rw [if_neg hc, if_neg hc]

/-- A run that ends no later than a piece ends inside it, if it could go on behind the piece. -/
theorem run_lt_length {p : Char → Bool} {b v : List Char} {c : Char} (hv : v.head? = some c)
    (hc : p c = true) (h : run p (b ++ v) ≤ b.length) : run p b < b.length := by
  induction b with
  | nil =>
    obtain ⟨v, rfl⟩ := List.head?_eq_some_iff.1 hv
    simp [run_cons, hc] at h
  | cons d b ih =>
    rw [List.cons_append, run_cons, List.length_cons] at h
    rw [run_cons, List.length_cons]
    by_cases hd : p d = true
    · rw [if_pos hd] at h ⊢
      exact Nat.succ_lt_succ (ih (by omega))
    · rw [if_neg hd]
      exact Nat.succ_pos _

/-- A text that starts with something other than trivia. -/
def StartsToken (cs : List Char) : Prop := cs ≠ [] ∧ triviaLength cs = 0

theorem StartsToken.not_space {cs : List Char} (h : StartsToken cs) {c : Char}
    (hc : cs.head? = some c) : isSpace c = false :=
  (triviaLength_eq_zero_iff.1 h.2).2 c hc

/-- A bracket that a piece leaves open stays open in front of another continuation. -/
def KeepsOpen (b v w : List Char) : Prop :=
  ∀ x c, b = x ++ c → longBracket? (c ++ v) = none → longBracket? (c ++ w) = none

theorem KeepsOpen.suffix {x b v w : List Char} (h : KeepsOpen (x ++ b) v w) :
    KeepsOpen b v w := by
  rintro y c rfl hc
  exact h (x ++ y) c (List.append_assoc x y c).symm hc

theorem KeepsOpen.initial {b y v w : List Char} (h : KeepsOpen (b ++ y) v w) :
    KeepsOpen b (y ++ v) (y ++ w) := by
  rintro x c rfl hc
  rw [← List.append_assoc] at hc ⊢
  exact h x (c ++ y) (List.append_assoc x c y) hc

/-- Only the brackets that a piece opens matter, if the continuation starts with no part of one. -/
theorem keepsOpen_of_opened {b v w : List Char}
    (hw : ∀ c, w.head? = some c → c ≠ '[' ∧ c ≠ '=')
    (h : ∀ x c, b = x ++ c → (longLevel? c).isSome → longBracket? (c ++ v) = none →
      longBracket? (c ++ w) = none) : KeepsOpen b v w := by
  intro x c hb hc
  cases hl : longLevel? c with
  | none =>
    rw [longBracket?_eq, longLevel?_append_eq_none hl hw]
    rfl
  | some level => exact h x c hb (by rw [hl]; rfl) hc

/-- Whether a long bracket is opened in a text. -/
def opensBracket : List Char → Bool
  | [] => false
  | c :: cs => (longLevel? (c :: cs)).isSome || opensBracket cs

theorem opensBracket_suffix {x c : List Char} (h : opensBracket (x ++ c) = false) :
    opensBracket c = false := by
  induction x with
  | nil => exact h
  | cons d x ih => exact ih (Bool.or_eq_false_iff.1 h).2

/-- A text that opens no bracket leaves none open. -/
theorem keepsOpen_of_opensBracket {b v w : List Char} (h : opensBracket b = false)
    (hw : ∀ c, w.head? = some c → c ≠ '[' ∧ c ≠ '=') : KeepsOpen b v w := by
  refine keepsOpen_of_opened hw fun x c hc hsome => ?_
  rw [hc] at h
  have hopens := opensBracket_suffix h
  cases c with
  | nil => cases hsome
  | cons d c =>
    rw [opensBracket, hsome] at hopens
    cases hopens

/-- White space that a piece starts with is the same in front of another token. -/
theorem triviaLength_carry_space {b v w : List Char} (hv : StartsToken v) (hw : StartsToken w)
    (hcomment : comment? (b ++ v) = none) (h : triviaLength (b ++ v) ≤ b.length)
    (hpos : triviaLength (b ++ v) ≠ 0) : triviaLength (b ++ w) = triviaLength (b ++ v) := by
  rw [triviaLength_of_comment?_eq_none hcomment] at h hpos ⊢
  obtain ⟨c, b, rfl⟩ : ∃ c cs, b = c :: cs := by
    refine List.exists_cons_of_ne_nil ?_
    rintro rfl
    exact hpos (Nat.le_zero.1 h)
  have hc : isSpace c = true := by
    cases hc : isSpace c with
    | true => rfl
    | false => simp [run_cons, hc] at hpos
  have hcomment' : comment? (c :: b ++ w) = none := by
    rw [comment?_eq_none_iff]
    rintro rest heq
    rw [(List.cons.inj heq).1] at hc
    exact absurd hc (by decide)
  rw [triviaLength_of_comment?_eq_none hcomment',
    run_append_of_head fun c hc => hw.not_space hc,
    run_append_of_head fun c hc => hv.not_space hc]

/-- A comment that ends in a piece ends there in front of another continuation. Its line ends inside
the piece, since no token starts with a line feed. -/
theorem triviaLength_carry_comment {b v w : List Char} (hv : StartsToken v)
    (hopen : longBracket? (b ++ v) = none → longBracket? (b ++ w) = none)
    (h : triviaLength ('-' :: '-' :: (b ++ v)) ≤ b.length + 2) :
    triviaLength ('-' :: '-' :: (b ++ w)) = triviaLength ('-' :: '-' :: (b ++ v)) := by
  rw [triviaLength_comment] at h ⊢
  rw [triviaLength_comment]
  congr 1
  cases hl : longBracket? (b ++ v) with
  | some n =>
    rw [hl, Option.getD_some] at h
    have hclosed := longBracket?_take_append hl (b.drop n ++ w)
    rw [List.take_append_of_le_length (by omega), ← List.append_assoc, List.take_append_drop]
      at hclosed
    rw [hclosed, Option.getD_some, Option.getD_some]
  | none =>
    rw [hl, Option.getD_none] at h
    rw [hopen hl, Option.getD_none, Option.getD_none]
    have hle : run (· ≠ '\n') (b ++ v) ≤ b.length := by omega
    obtain ⟨c, v, rfl⟩ := List.exists_cons_of_ne_nil hv.1
    have hc : decide (c ≠ '\n') = true := by
      refine decide_eq_true ?_
      rintro rfl
      exact absurd (hv.not_space rfl) (by decide)
    rw [run_append_of_le (· ≠ '\n') hle, run_append_of_lt w (run_lt_length rfl hc hle)]

/-- A text that is a comment with another behind it starts with two minus signs itself, unless the
comment reaches into the other. -/
theorem exists_comment_of_le {b v : List Char} (hcomment : comment? (b ++ v) ≠ none)
    (h : triviaLength (b ++ v) ≤ b.length) : ∃ b', b = '-' :: '-' :: b' := by
  rw [ne_eq, comment?_eq_none_iff] at hcomment
  simp only [Classical.not_forall, ne_eq, Classical.not_not] at hcomment
  obtain ⟨rest, hrest⟩ := hcomment
  rw [hrest, triviaLength_comment] at h
  match b with
  | [] => simp at h
  | [c] =>
    simp at h
    omega
  | c :: d :: b =>
    obtain ⟨rfl, htail⟩ := List.cons.inj hrest
    exact ⟨b, by rw [(List.cons.inj htail).1]⟩

theorem triviaLength_carry {b v w : List Char} (hv : StartsToken v) (hw : StartsToken w)
    (hopen : KeepsOpen b v w) (h : triviaLength (b ++ v) ≤ b.length)
    (hpos : triviaLength (b ++ v) ≠ 0) : triviaLength (b ++ w) = triviaLength (b ++ v) := by
  by_cases hcomment : comment? (b ++ v) = none
  · exact triviaLength_carry_space hv hw hcomment h hpos
  · obtain ⟨b, rfl⟩ := exists_comment_of_le hcomment h
    exact triviaLength_carry_comment hv (hopen ['-', '-'] b rfl) h

/-- A gap before a token is the same before another token. -/
theorem gap_carry {g v w : List Char} (hv : StartsToken v) (hw : StartsToken w)
    (hopen : KeepsOpen g v w) {n : Nat} (h : gap n (g ++ v) = g) : gap n (g ++ w) = g := by
  induction g generalizing n with
  | nil =>
    cases n with
    | zero => exact gap_zero_of_triviaLength hw.2
    | succ n =>
      obtain ⟨c, v, rfl⟩ := List.exists_cons_of_ne_nil hv.1
      contradiction
  | cons c g ih =>
    have hopen' : KeepsOpen g v w := KeepsOpen.suffix (x := [c]) hopen
    cases n with
    | succ n =>
      rw [List.cons_append, gap_succ_cons, List.cons.injEq] at h ⊢
      exact ⟨rfl, ih hopen' h.2⟩
    | zero =>
      cases hn : triviaLength (c :: g ++ v) with
      | zero =>
        rw [gap_zero_of_triviaLength hn] at h
        contradiction
      | succ n =>
        have hgap : gap n (g ++ v) = g := by
          exact (List.cons.inj ((gap_zero_cons hn).symm.trans h)).2
        have hle : n ≤ g.length := by
          refine Nat.le_of_not_lt fun hlt => ?_
          have hpos := List.length_pos_iff.2 hv.1
          have hmin := min_le_length_gap n (g ++ v)
          rw [hgap, List.length_append] at hmin
          omega
        have hsame := triviaLength_carry hv hw hopen (by rw [hn, List.length_cons]; omega)
          (by rw [hn]; exact Nat.succ_ne_zero n)
        rw [hn] at hsame
        exact (gap_zero_cons hsame).trans (congrArg (c :: ·) (ih hopen' hgap))

end TypedLinks.Luau
