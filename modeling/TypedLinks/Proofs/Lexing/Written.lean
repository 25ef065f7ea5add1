import Mathlib.Data.List.TakeWhile
import TypedLinks.Proofs.Lexing.Ignored
import TypedLinks.Proofs.Lexing.Scanning

/-!
# Written tokens

A name, a keyword or a symbol that is written down is scanned again as what it is, if nothing follows
that it would go on with. Where a word could be a keyword or a name it is the keyword.
-/

namespace TypedLinks.Luau

open Lexeme

/-! ## The greatest lexeme -/

/-- Of several longest lexemes the first counts. -/
theorem first_of_longest {R : Terminal × Nat → Terminal × Nat → Prop} {l : List (Terminal × Nat)}
    {c d : Terminal × Nat} (hl : l.Pairwise R) (h : longest l = some c) (hd : d ∈ l)
    (hn : d.2 = c.2) : d = c ∨ R c d := by
  induction l generalizing c with
  | nil => contradiction
  | cons e l ih =>
    rw [List.pairwise_cons] at hl
    unfold longest at h
    cases hlongest : longest l with
    | none =>
      have hnil : l = [] := by
        by_contra hne
        exact longest_ne_none hne hlongest
      rw [hlongest] at h
      cases h
      subst hnil
      exact .inl (List.mem_singleton.1 hd)
    | some f =>
      rw [hlongest] at h
      simp only at h
      split at h
      · rename_i hlt
        cases h
        rcases List.mem_cons.1 hd with rfl | hd
        · omega
        · exact ih hl.2 hlongest hd hn
      · cases h
        rcases List.mem_cons.1 hd with rfl | hd
        · exact .inl rfl
        · exact .inr (hl.1 d hd)

theorem Terminal.pairwise_all : all.Pairwise (·.index < ·.index) := by decide

theorem pairwise_candidates (accepted : Terminal → Bool) (cs : List Char) :
    (candidates accepted cs).Pairwise (·.1.index < ·.1.index) := by
  refine List.Pairwise.filter _ (List.pairwise_filterMap.2 (Terminal.pairwise_all.imp ?_))
  intro t u hlt c hc d hd
  obtain ⟨n, -, rfl⟩ := Option.map_eq_some_iff.1 hc
  obtain ⟨m, -, rfl⟩ := Option.map_eq_some_iff.1 hd
  exact hlt

/-- An accepted lexeme is scanned if every other accepted one is shorter, or is listed later. -/
theorem scan_of_greatest {accepted : Terminal → Bool} {t : Terminal} {text rest : List Char}
    (hacc : accepted t = true) (hlexeme : t.lexeme? (text ++ rest) = some text.length)
    (hmax : ∀ u n, accepted u = true → u.lexeme? (text ++ rest) = some n →
      n < text.length ∨ n = text.length ∧ (u = t ∨ t.index < u.index)) (p : Position) :
    scan accepted p (text ++ rest) = some (⟨t, text, ⟨p, p.advance text⟩⟩, rest) := by
  have hmem : (t, text.length) ∈ candidates accepted (text ++ rest) :=
    mem_candidates.2 ⟨hacc, hlexeme⟩
  obtain ⟨⟨u, n⟩, hlongest⟩ := Option.ne_none_iff_exists'.1
    (longest_ne_none (List.ne_nil_of_mem hmem))
  obtain ⟨hu, hn⟩ := mem_candidates.1 (mem_of_longest hlongest)
  have hle : text.length ≤ n := le_of_longest hlongest hmem
  obtain ⟨rfl, hut⟩ : n = text.length ∧ (u = t ∨ t.index < u.index) := by
    rcases hmax u n hu hn with hlt | h
    · omega
    · exact h
  obtain rfl : u = t := by
    rcases first_of_longest (pairwise_candidates _ _) hlongest hmem rfl with heq | hlt
    · exact (Prod.mk.inj heq).1.symm
    · rcases hut with rfl | hgt
      · rfl
      · simp only at hlt
        omega
  exact scan_eq_some_iff.2
    ⟨text.length, hlongest, (List.take_left).symm, rfl, (List.drop_left).symm⟩

/-! ## Words -/

/-- A text that is a name as a whole. -/
def IsName (w : List Char) : Prop := name? w = some w.length

/-- A text that no name goes on with. -/
def EndsName (rest : List Char) : Prop := ∀ c, rest.head? = some c → isNamePart c = false

theorem IsName.cons {w : List Char} (h : IsName w) :
    ∃ c cs, w = c :: cs ∧ isNameStart c = true ∧ ∀ d ∈ cs, isNamePart d = true := by
  cases w with
  | nil => contradiction
  | cons c cs =>
    simp only [IsName, name?, List.length_cons] at h
    split at h
    · rename_i hc
      refine ⟨c, cs, rfl, hc, fun d hd => ?_⟩
      have hrun : run isNamePart cs = cs.length := by
        have := Option.some.inj h
        omega
      exact mem_take_run (p := isNamePart) (by rwa [hrun, List.take_length])
    · contradiction

theorem isNamePart_of_isNameStart {c : Char} (h : isNameStart c = true) : isNamePart c = true := by
  simp [isNamePart, h]

theorem IsName.parts {w : List Char} (h : IsName w) : ∀ c ∈ w, isNamePart c = true := by
  obtain ⟨c, cs, rfl, hc, hcs⟩ := h.cons
  simp only [List.mem_cons, forall_eq_or_imp]
  exact ⟨isNamePart_of_isNameStart hc, hcs⟩

theorem IsName.lexeme {w rest : List Char} (h : IsName w) (hrest : EndsName rest) :
    Terminal.name.lexeme? (w ++ rest) = some w.length := by
  change name? (w ++ rest) = some w.length
  obtain ⟨c, cs, rfl, hc, hcs⟩ := h.cons
  have hrun : run isNamePart (cs ++ rest) = cs.length := by
    rw [run_append_of_head hrest, run, List.takeWhile_eq_self_iff.2 hcs]
  rw [List.cons_append, name?, if_pos hc, hrun, List.length_cons, Nat.add_comm]

/-- The token of a name is a name as a whole. -/
theorem isName_of_lexeme? {w rest : List Char}
    (h : Terminal.name.lexeme? (w ++ rest) = some w.length) : IsName w := by
  have hlocal := local_name? w rest
  cases w with
  | nil => exact absurd (name?_bounds h).1 (Nat.lt_irrefl 0)
  | cons c w =>
    change name? (c :: w ++ rest) = some _ at h
    rw [hlocal (List.cons_ne_nil c w) fun n hn => by
      rw [h] at hn
      exact Nat.le_of_eq (Option.some.inj hn).symm] at h
    exact h

theorem spellings_of_word :
    ∀ t ∈ Terminal.all, ∀ s ∈ t.spellings, s.head?.any isNameStart = true →
      t.spelling? = some s ∧ s.all isNamePart = true := by
  decide

theorem isDigit_of_isNameStart {c : Char} (h : isNameStart c = true) : isDigit c = false := by
  simp only [isNameStart, isDigit, Bool.or_eq_true, Bool.and_eq_true, decide_eq_true_eq,
    Bool.and_eq_false_iff, decide_eq_false_iff_not, Char.le_def, UInt32.le_iff_toNat_le] at h ⊢
  rcases h with (⟨h, -⟩ | ⟨h, -⟩) | rfl
  · exact .inr (by have : 'a'.val.toNat = 97 := rfl; have : '9'.val.toNat = 57 := rfl; omega)
  · exact .inr (by have : 'A'.val.toNat = 65 := rfl; have : '9'.val.toNat = 57 := rfl; omega)
  · decide

theorem number?_eq_none {c : Char} (hdigit : isDigit c = false) (hpoint : c ≠ '.')
    (cs : List Char) : number? (c :: cs) = none := by
  have hzero : c ≠ '0' := by
    rintro rfl
    exact absurd hdigit (by decide)
  rw [number?_of_ne hzero, decimal?_eq, mantissa?_cons hpoint, hdigit]
  rfl

theorem number?_point {cs : List Char} (h : ∀ d, cs.head? = some d → isDigit d = false) :
    number? ('.' :: cs) = none := by
  rw [number?_of_ne (by decide), decimal?_eq]
  have hmantissa : mantissa? ('.' :: cs) = none := by
    cases cs with
    | nil => rfl
    | cons d cs => simp [mantissa?_point, h d rfl]
  rw [hmantissa]
  rfl

/-- At a word there are only the name and the keywords that are written so or start so. -/
theorem lexeme_of_word {w rest : List Char} (h : IsName w) (hrest : EndsName rest) {t : Terminal}
    {n : Nat} (ht : t.lexeme? (w ++ rest) = some n) :
    n < w.length ∨ n = w.length ∧ (t = .name ∨ t.spelling? = some w) := by
  obtain ⟨c, cs, hw, hc, -⟩ := h.cons
  by_cases hname : t = .name
  · subst hname
    rw [h.lexeme hrest] at ht
    exact .inr ⟨(Option.some.inj ht).symm, .inl rfl⟩
  by_cases hflat : t.isFlat = true
  · by_cases hnumber : t = .number
    · subst hnumber
      change number? (w ++ rest) = some n at ht
      rw [hw, List.cons_append, number?_eq_none (isDigit_of_isNameStart hc)] at ht
      · contradiction
      · rintro rfl
        exact absurd hc (by decide)
    rw [Terminal.lexeme?_eq_spelled? hname hnumber hflat] at ht
    obtain ⟨s, hs, htake, rfl⟩ := prefix_of_spelled? ht
    have hhead : s.head?.any isNameStart = true := by
      cases s with
      | nil => exact absurd hs (Terminal.nil_not_mem_spellings t)
      | cons d s =>
        rw [hw, List.cons_append, List.length_cons, List.take_succ_cons, List.cons.injEq] at htake
        exact htake.1 ▸ hc
    obtain ⟨hspelling, hparts⟩ := spellings_of_word t (Terminal.mem_all t) s hs hhead
    rcases Nat.lt_trichotomy s.length w.length with hlt | heq | hgt
    · exact .inl hlt
    · rw [heq, List.take_left] at htake
      exact .inr ⟨heq, .inr (by rw [hspelling, htake])⟩
    · -- The keyword would go on with what follows the word.
      rw [List.take_append, List.take_of_length_le (Nat.le_of_lt hgt)] at htake
      cases rest with
      | nil =>
        have hlength := congrArg List.length htake
        simp at hlength
        omega
      | cons d rest =>
        obtain ⟨k, hk⟩ : ∃ k, s.length - w.length = k + 1 := ⟨s.length - w.length - 1, by omega⟩
        rw [hk, List.take_succ_cons] at htake
        have hd := List.all_eq_true.1 hparts d (by rw [← htake]; simp)
        rw [hrest d rfl] at hd
        contradiction
  · cases t <;> first | exact absurd rfl hflat | skip
    · rw [hw, List.cons_append] at ht
      rw [head_of_interpolated ht] at hc
      exact absurd hc (by decide)
    · rw [hw, List.cons_append] at ht
      rcases head_of_quoted ht with rfl | rfl | rfl <;> exact absurd hc (by decide)

theorem spellings_apart_checked :
    ∀ t ∈ Terminal.all, t.spelling?.all
      (fun s => Terminal.all.find? (·.spelling? = some s) = some t) = true := by
  decide +kernel

theorem Terminal.eq_of_spelling? {t u : Terminal} {s : List Char} (ht : t.spelling? = some s)
    (hu : u.spelling? = some s) : t = u := by
  have hfirst {t : Terminal} (ht : t.spelling? = some s) :
      all.find? (·.spelling? = some s) = some t := by
    have hchecked := spellings_apart_checked t (mem_all t)
    rw [ht] at hchecked
    exact of_decide_eq_true hchecked
  exact Option.some.inj ((hfirst ht).symm.trans (hfirst hu))

theorem index_lt_name_checked :
    ∀ t ∈ Terminal.all, t.spelling?.isSome → t.index < Terminal.name.index := by
  decide

section Scan

variable {accepted : Terminal → Bool} {w rest : List Char} {t : Terminal}

theorem Terminal.lexeme?_eq_of_spelling? (ht : t.spelling? = some w) (cs : List Char) :
    t.lexeme? cs = spelled? [w] cs := by
  cases t <;> first | contradiction | (cases ht; rfl)

theorem Terminal.lexeme?_of_spelling? (ht : t.spelling? = some w) (rest : List Char) :
    t.lexeme? (w ++ rest) = some w.length := by
  have hprefix : w.isPrefixOf (w ++ rest) = true := by simp
  rw [lexeme?_eq_of_spelling? ht, spelled?, List.find?_cons, hprefix]
  rfl

/-- A token of a terminal with one spelling is spelled so. -/
theorem Terminal.text_of_spelling? (ht : t.spelling? = some w) {text : List Char}
    (h : t.lexeme? (text ++ rest) = some text.length) : text = w := by
  rw [lexeme?_eq_of_spelling? ht] at h
  obtain ⟨s, hs, htake, hlength⟩ := prefix_of_spelled? h
  rw [List.mem_singleton.1 hs] at htake
  rwa [List.take_left] at htake

/-- What follows the token of a name does not go on with it. -/
theorem endsName_of_lexeme? (h : Terminal.name.lexeme? (w ++ rest) = some w.length) :
    EndsName rest := by
  obtain ⟨c, cs, rfl, hc, hcs⟩ := (isName_of_lexeme? h).cons
  change name? (c :: (cs ++ rest)) = some (cs.length + 1) at h
  rw [name?, if_pos hc] at h
  have hrun : run isNamePart (cs ++ rest) = cs.length := by
    have := Option.some.inj h
    omega
  intro d hd
  obtain ⟨rest, rfl⟩ := List.head?_eq_some_iff.1 hd
  by_contra hpart
  rw [Bool.not_eq_false] at hpart
  have hlong : run isNamePart (cs ++ d :: rest) = cs.length + run isNamePart (d :: rest) := by
    rw [run, List.takeWhile_append, if_pos (by rw [List.takeWhile_eq_self_iff.2 hcs]),
      List.length_append]
    rfl
  rw [hlong, run_cons, if_pos hpart] at hrun
  omega

/-- A word that is an accepted keyword is scanned as that. -/
theorem scan_keyword (h : IsName w) (hrest : EndsName rest) (ht : t.spelling? = some w)
    (hacc : accepted t = true) (p : Position) :
    scan accepted p (w ++ rest) = some (⟨t, w, ⟨p, p.advance w⟩⟩, rest) := by
  refine scan_of_greatest hacc (Terminal.lexeme?_of_spelling? ht rest) (fun u n _ hn => ?_) p
  refine (lexeme_of_word h hrest hn).imp_right (And.imp_right ?_)
  rintro (rfl | hu)
  · exact .inr (index_lt_name_checked t (Terminal.mem_all t) (by rw [ht]; rfl))
  · exact .inl (Terminal.eq_of_spelling? hu ht)

/-- Another word is scanned as a name. -/
theorem scan_name (h : IsName w) (hrest : EndsName rest) (hacc : accepted .name = true)
    (hword : ∀ u, accepted u = true → u.spelling? ≠ some w) (p : Position) :
    scan accepted p (w ++ rest) = some (⟨.name, w, ⟨p, p.advance w⟩⟩, rest) := by
  refine scan_of_greatest hacc (h.lexeme hrest) (fun u n hu hn => ?_) p
  refine (lexeme_of_word h hrest hn).imp_right (And.imp_right ?_)
  rintro (rfl | hspelling)
  · exact .inl rfl
  · exact absurd hspelling (hword u hu)

/-! ## Symbols -/

/-- The symbols that a link file is written with. -/
def isWritten (t : Terminal) : Bool :=
  [.less, .greater, .comma, .dot, .ellipsis, .equals].contains t

/-- Whether a symbol may be followed by a character: no longer symbol goes on with it. -/
def mayFollow (t : Terminal) (c : Char) : Bool :=
  match t with
  | .less => c ≠ '<' && c ≠ '='
  | .greater | .equals => c ≠ '='
  | .dot => c ≠ '.' && !isDigit c
  | _ => true

theorem written_checked :
    ∀ t ∈ Terminal.all, isWritten t = true → ∀ s, t.spelling? = some s →
      (∀ c, s.head? = some c → isNameStart c = false ∧ isDigit c = false ∧
        c ≠ '"' ∧ c ≠ '\'' ∧ c ≠ '[' ∧ c ≠ '\x60' ∧ (c = '.' → t = .dot ∨ t = .ellipsis)) ∧
      ∀ u ∈ Terminal.all, ∀ s' ∈ u.spellings, s.isPrefixOf s' →
        s' = s ∧ u = t ∨ (s'.drop s.length).head?.any (!mayFollow t ·) = true := by
  intro t ht hwritten s hs
  cases t <;> first | contradiction | skip
  all_goals
    obtain rfl := Option.some.inj hs
    refine ⟨?_, by decide⟩
    rintro c ⟨⟩
    decide

/-- A symbol that is accepted is scanned as that, if what follows does not make it longer. -/
theorem scan_symbol (hwritten : isWritten t = true) (ht : t.spelling? = some w)
    (hacc : accepted t = true) (hrest : ∀ c, rest.head? = some c → mayFollow t c = true)
    (p : Position) : scan accepted p (w ++ rest) = some (⟨t, w, ⟨p, p.advance w⟩⟩, rest) := by
  obtain ⟨hhead, hlonger⟩ := written_checked t (Terminal.mem_all t) hwritten w ht
  obtain ⟨c, cs, rfl⟩ : ∃ c cs, w = c :: cs := by
    cases w with
    | nil => cases t <;> contradiction
    | cons c cs => exact ⟨c, cs, rfl⟩
  obtain ⟨hname, hdigit, hquote, hquote', hbracket, hback, hpoint⟩ := hhead c rfl
  refine scan_of_greatest hacc (Terminal.lexeme?_of_spelling? ht rest) (fun u n hu hn => ?_) p
  by_cases huname : u = .name
  · subst huname
    simp [Terminal.lexeme?, name?, hname] at hn
  by_cases hunumber : u = .number
  · subst hunumber
    change number? (c :: cs ++ rest) = some n at hn
    by_cases hc : c = '.'
    · subst hc
      have hnext : ∀ d, (cs ++ rest).head? = some d → isDigit d = false := by
        intro d hd
        rcases hpoint rfl with rfl | rfl
        · obtain rfl : cs = [] := by cases ht; rfl
          simpa [mayFollow] using And.right (Bool.and_eq_true_iff.1 (hrest d hd))
        · obtain rfl : cs = ['.', '.'] := by cases ht; rfl
          cases hd
          decide
      rw [List.cons_append, number?_point hnext] at hn
      contradiction
    · rw [List.cons_append, number?_eq_none hdigit hc] at hn
      contradiction
  by_cases huflat : u.isFlat = true
  · rw [Terminal.lexeme?_eq_spelled? huname hunumber huflat] at hn
    obtain ⟨s, hs, htake, rfl⟩ := prefix_of_spelled? hn
    rcases Nat.lt_or_ge s.length (c :: cs).length with hlt | hge
    · exact .inl hlt
    · rw [List.take_append, List.take_of_length_le hge] at htake
      have hprefix : (c :: cs).isPrefixOf s = true := by
        rw [← htake]
        simp
      rcases hlonger u (Terminal.mem_all u) s hs hprefix with ⟨rfl, rfl⟩ | hlong
      · exact .inr ⟨rfl, .inl rfl⟩
      · obtain ⟨d, hd, hnot⟩ := (Option.any_eq_true _ _).1 hlong
        rw [← htake, List.drop_left, List.head?_take] at hd
        split at hd
        · contradiction
        · rw [hrest d hd] at hnot
          contradiction
  · rw [List.cons_append] at hn
    cases u <;> first | exact absurd rfl huflat | skip
    · exact absurd (head_of_interpolated hn) hback
    · rcases head_of_quoted hn with h | h | h
      · exact absurd h hquote
      · exact absurd h hquote'
      · exact absurd h hbracket

end Scan

/-! ## Blanks -/

theorem blank_checked : ∀ c ∈ [' '], isSpace c = true := List.all_eq_true.1 (by decide)

theorem startsToken_of_head {c : Char} {cs : List Char} (h : cs.head? = some c)
    (hspace : isSpace c = false) (hminus : c ≠ '-') : StartsToken cs := by
  obtain ⟨cs, rfl⟩ := List.head?_eq_some_iff.1 h
  refine ⟨List.cons_ne_nil _ _, triviaLength_eq_zero_iff.2 ⟨?_, fun d hd => ?_⟩⟩
  · rw [comment?_eq_none_iff]
    rintro rest heq
    exact hminus (List.cons.inj heq).1
  · obtain rfl := Option.some.inj hd
    exact hspace

/-- Trivia ends a name. -/
theorem endsName_of_gap {cs : List Char} (h : gap 0 cs = cs) : EndsName cs := by
  intro c hc
  obtain ⟨cs, rfl⟩ := List.head?_eq_some_iff.1 hc
  cases hpart : isNamePart c with
  | false => rfl
  | true =>
    have hspace : isSpace c = false := by
      cases hspace : isSpace c with
      | false => rfl
      | true =>
        simp only [isSpace, Bool.or_eq_true, decide_eq_true_eq] at hspace
        rcases hspace with ((((rfl | rfl) | rfl) | rfl) | rfl) | rfl <;>
          exact absurd hpart (by decide)
    have hstarts : StartsToken (c :: cs) := startsToken_of_head rfl hspace (by
      rintro rfl
      exact absurd hpart (by decide))
    rw [gap_zero_of_triviaLength hstarts.2] at h
    contradiction

/-- White space before a token is the gap there. -/
theorem gap_blank {g cs : List Char} (hg : ∀ c ∈ g, isSpace c = true) (h : StartsToken cs) :
    gap 0 (g ++ cs) = g :=
  gap_of_spaces hg h.2

end TypedLinks.Luau
