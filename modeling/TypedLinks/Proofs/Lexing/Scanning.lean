import Mathlib.Data.List.Basic
import TypedLinks.Luau.Token
import TypedLinks.Proofs.Lexing.Locality
import TypedLinks.Proofs.Lexing.Trivia

/-!
# Scanning

Of the accepted lexemes at a place the longest is scanned. It depends on the characters up to its end
only, apart from a long bracket that is opened there and not closed: so a piece of a source may be
moved in front of another continuation.
-/

namespace TypedLinks.Luau

open Lexeme

/-! ## The longest lexeme -/

theorem mem_of_longest {l : List (Terminal × Nat)} {c : Terminal × Nat} (h : longest l = some c) :
    c ∈ l := by
  induction l generalizing c with
  | nil => contradiction
  | cons d l ih =>
    unfold longest at h
    cases hl : longest l with
    | none =>
      rw [hl] at h
      cases h
      exact List.mem_cons_self
    | some e =>
      rw [hl] at h
      simp only at h
      split at h
      · cases h
        exact List.mem_cons_of_mem _ (ih hl)
      · cases h
        exact List.mem_cons_self

theorem longest_ne_none {l : List (Terminal × Nat)} (h : l ≠ []) : longest l ≠ none := by
  cases l with
  | nil => exact absurd rfl h
  | cons c l =>
    unfold longest
    split
    · exact Option.some_ne_none _
    · split <;> exact Option.some_ne_none _

theorem le_of_longest {l : List (Terminal × Nat)} {c d : Terminal × Nat}
    (h : longest l = some c) (hd : d ∈ l) : d.2 ≤ c.2 := by
  induction l generalizing c with
  | nil => contradiction
  | cons e l ih =>
    unfold longest at h
    cases hl : longest l with
    | none =>
      rw [hl] at h
      cases h
      rcases List.mem_cons.1 hd with rfl | hd
      · exact Nat.le_refl _
      · exact absurd hl (longest_ne_none (List.ne_nil_of_mem hd))
    | some f =>
      rw [hl] at h
      simp only at h
      rcases List.mem_cons.1 hd with rfl | hd
      · split at h
        · cases h
          omega
        · cases h
          exact Nat.le_refl _
      · have := ih hl hd
        split at h
        · cases h
          exact this
        · cases h
          omega

/-! ## Candidates -/

theorem mem_candidates {accepted : Terminal → Bool} {cs : List Char} {t : Terminal} {n : Nat} :
    (t, n) ∈ candidates accepted cs ↔ accepted t = true ∧ t.lexeme? cs = some n := by
  simp only [candidates, List.mem_filter, List.mem_filterMap, Option.map_eq_map,
    Option.map_eq_some_iff, Prod.mk.injEq]
  constructor
  · rintro ⟨⟨t', ht', k, hk, rfl, rfl⟩, hacc⟩
    exact ⟨hacc, hk⟩
  · rintro ⟨hacc, hn⟩
    exact ⟨⟨t, Terminal.mem_all t, n, hn, rfl, rfl⟩, hacc⟩

theorem candidates_congr {accepted : Terminal → Bool} {cs ds : List Char}
    (h : ∀ t, accepted t = true → t.lexeme? cs = t.lexeme? ds) :
    candidates accepted cs = candidates accepted ds := by
  rw [candidates, candidates, List.filter_filterMap, List.filter_filterMap]
  refine List.filterMap_congr fun t _ => ?_
  by_cases ht : accepted t = true
  · rw [h t ht]
  · have hnone (o : Option Nat) : ((t, ·) <$> o).filter (accepted ·.1) = none := by
      cases o <;> simp [ht]
    rw [hnone, hnone]

theorem scan_eq_some_iff {accepted : Terminal → Bool} {p : Position} {cs rest : List Char}
    {t : Token} :
    scan accepted p cs = some (t, rest) ↔
      ∃ n, longest (candidates accepted cs) = some (t.terminal, n) ∧ t.text = cs.take n ∧
        t.span = ⟨p, p.advance t.text⟩ ∧ rest = cs.drop n := by
  unfold scan
  rw [Option.map_eq_some_iff]
  constructor
  · rintro ⟨⟨t', n⟩, hlongest, heq⟩
    cases heq
    exact ⟨n, hlongest, rfl, rfl, rfl⟩
  · rintro ⟨n, hlongest, htext, hspan, rfl⟩
    refine ⟨(t.terminal, n), hlongest, ?_⟩
    rw [htext] at hspan
    cases t
    simp_all

/-- A token is an accepted lexeme at the start of the text. -/
theorem lexeme?_of_scan {accepted : Terminal → Bool} {p : Position} {cs rest : List Char}
    {t : Token} (h : scan accepted p cs = some (t, rest)) :
    accepted t.terminal = true ∧ cs = t.text ++ rest ∧ t.text ≠ [] ∧
      t.terminal.lexeme? cs = some t.text.length ∧ t.span = ⟨p, p.advance t.text⟩ := by
  obtain ⟨n, hlongest, htext, hspan, rfl⟩ := scan_eq_some_iff.1 h
  obtain ⟨hacc, hn⟩ := mem_candidates.1 (mem_of_longest hlongest)
  obtain ⟨hpos, hle⟩ := Terminal.lexeme?_bounds hn
  have hlength : t.text.length = n := by rw [htext, List.length_take, Nat.min_eq_left hle]
  refine ⟨hacc, ?_, ?_, ?_, hspan⟩
  · rw [htext, List.take_append_drop]
  · rw [← List.length_pos_iff]
    omega
  · rw [hn, hlength]

/-! ## Moving a lexeme -/

section Carry

variable {b v w : List Char}

theorem quotes_not_mem_spellings :
    ∀ t ∈ Terminal.all, ∀ s ∈ t.spellings, '"' ∉ s ∧ '\'' ∉ s ∧ '\x60' ∉ s := by
  decide

/-- Only strings start with a quote. -/
theorem not_quote_of_lexeme? {t : Terminal} (ht : t.isFlat = true) {c : Char} {cs : List Char}
    {n : Nat} (h : t.lexeme? (c :: cs) = some n) : c ≠ '"' ∧ c ≠ '\'' ∧ c ≠ '\x60' := by
  have hmem : c ∈ (c :: cs).take n := by
    obtain ⟨k, rfl⟩ : ∃ k, n = k + 1 := ⟨n - 1, by have := (Terminal.lexeme?_bounds h).1; omega⟩
    rw [List.take_succ_cons]
    exact List.mem_cons_self
  have hpart (hc : isNumberPart c = true) : c ≠ '"' ∧ c ≠ '\'' ∧ c ≠ '\x60' := by
    refine ⟨?_, ?_, ?_⟩ <;> (rintro rfl; exact absurd hc (by decide))
  by_cases hname : t = .name
  · subst hname
    change name? (c :: cs) = some n at h
    simp only [name?] at h
    split at h
    · rename_i hstart
      exact hpart (isNumberPart_of_isNamePart (by simp [isNamePart, hstart]))
    · contradiction
  by_cases hnumber : t = .number
  · subst hnumber
    exact hpart (isNumberPart_of_number? h hmem)
  rw [Terminal.lexeme?_eq_spelled? hname hnumber ht] at h
  obtain ⟨s, hs, htake, rfl⟩ := prefix_of_spelled? h
  rw [htake] at hmem
  obtain ⟨hdouble, hsingle, hback⟩ := quotes_not_mem_spellings t (Terminal.mem_all t) s hs
  exact ⟨fun h => hdouble (h ▸ hmem), fun h => hsingle (h ▸ hmem), fun h => hback (h ▸ hmem)⟩

theorem head_of_quoted {c : Char} {cs : List Char} {n : Nat}
    (h : Terminal.quoted.lexeme? (c :: cs) = some n) : c = '"' ∨ c = '\'' ∨ c = '[' := by
  rcases string?_cases (show string? (c :: cs) = some n from h) with
    ⟨q, rest, k, hq, heq, -, -⟩ | hlong
  · cases heq
    exact hq.imp_right .inl
  · obtain ⟨level, hlevel, -⟩ := Option.bind_eq_some_iff.1 ((longBracket?_eq _).symm.trans hlong)
    obtain ⟨rest, heq⟩ := longLevel?_eq_some_iff.1 hlevel
    exact .inr (.inr (List.cons.inj heq).1)

theorem head_of_interpolated {c : Char} {cs : List Char} {n : Nat}
    (h : Terminal.interpolated.lexeme? (c :: cs) = some n) : c = '\x60' := by
  obtain ⟨rest, k, heq, -, -⟩ := interpolated?_cases (show interpolated? (c :: cs) = some n from h)
  exact (List.cons.inj heq).1

theorem string?_of_ne {c : Char} (hc : c ≠ '"') (hc' : c ≠ '\'') (cs : List Char) :
    string? (c :: cs) = longBracket? (c :: cs) := by
  unfold string?
  split
  · rename_i heq
    exact absurd (List.cons.inj heq).1 hc
  · rename_i heq
    exact absurd (List.cons.inj heq).1 hc'
  · rfl

theorem Terminal.isFlat_cases (t : Terminal) :
    t.isFlat = true ∨ t = .interpolated ∨ t = .quoted := by
  cases t <;> simp [isFlat]

theorem ne_backtick_of_lexeme? {t : Terminal} (ht : t ≠ .interpolated) {c : Char} {cs : List Char}
    {n : Nat} (h : t.lexeme? (c :: cs) = some n) : c ≠ '\x60' := by
  rcases t.isFlat_cases with hflat | rfl | rfl
  · exact (not_quote_of_lexeme? hflat h).2.2
  · exact absurd rfl ht
  · rintro rfl
    rcases head_of_quoted h with hc | hc | hc <;> exact absurd hc (by decide)

theorem ne_quote_of_lexeme? {t : Terminal} (ht : t ≠ .quoted) {c : Char} {cs : List Char} {n : Nat}
    (h : t.lexeme? (c :: cs) = some n) : c ≠ '"' ∧ c ≠ '\'' := by
  rcases t.isFlat_cases with hflat | rfl | rfl
  · exact ⟨(not_quote_of_lexeme? hflat h).1, (not_quote_of_lexeme? hflat h).2.1⟩
  · rw [head_of_interpolated h]
    decide
  · exact absurd rfl ht

/-- Where a lexeme of some terminal starts, a lexeme of any terminal that ends in the piece is there
in front of another continuation as well, and no other one is: if that holds of the flat ones, and a
bracket that is left open stays open. -/
theorem Terminal.lexeme?_congr (hb : b ≠ []) (hopen : longBracket? (b ++ v) = none →
      longBracket? (b ++ w) = none) {t₀ : Terminal} {n₀ : Nat}
    (hfound : t₀.lexeme? (b ++ v) = some n₀) {t : Terminal}
    (hle : ∀ n, t.lexeme? (b ++ v) = some n → n ≤ b.length)
    (hflat : t.isFlat = true → t.lexeme? (b ++ w) = t.lexeme? (b ++ v)) :
    t.lexeme? (b ++ w) = t.lexeme? (b ++ v) := by
  by_cases ht : t.isFlat = true
  · exact hflat ht
  cases hn : t.lexeme? (b ++ v) with
  | some n =>
    rw [Bool.not_eq_true] at ht
    have hclosed := lexeme?_take_append ht hn (b.drop n ++ w)
    rwa [List.take_append_of_le_length (hle n hn), ← List.append_assoc, List.take_append_drop]
      at hclosed
  | none =>
    -- The terminal that was found is another one, so the text starts with no quote of this one.
    have hother : t₀ ≠ t := by
      rintro rfl
      rw [hn] at hfound
      contradiction
    obtain ⟨c, b, rfl⟩ := List.exists_cons_of_ne_nil hb
    rcases t.isFlat_cases.resolve_left ht with rfl | rfl
    · change interpolated? (c :: (b ++ w)) = none
      simp [interpolated?, ne_backtick_of_lexeme? hother hfound]
    · obtain ⟨hdouble, hsingle⟩ := ne_quote_of_lexeme? hother hfound
      change string? (c :: (b ++ v)) = none at hn
      change string? (c :: (b ++ w)) = none
      rw [string?_of_ne hdouble hsingle] at hn ⊢
      exact hopen hn

theorem Terminal.lexeme?_carry (hb : b ≠ []) (hstop : Stops b w) (hopen : KeepsOpen b v w)
    {t₀ : Terminal} {n₀ : Nat} (hfound : t₀.lexeme? (b ++ v) = some n₀) {t : Terminal}
    (hle : ∀ n, t.lexeme? (b ++ v) = some n → n ≤ b.length) :
    t.lexeme? (b ++ w) = t.lexeme? (b ++ v) := by
  refine lexeme?_congr hb (hopen [] b rfl) hfound hle fun hflat => ?_
  rw [local_lexeme? hflat _ v hb hle,
    local_lexeme? hflat _ w hb fun n hn => le_of_lexeme?_append hflat hb hstop hn]

/-- A token that ends in the piece is scanned in front of another continuation as well, if the
accepted lexemes that end in the piece are the same there. -/
theorem scan_congr {accepted : Terminal → Bool} {p r : Position} {rest : List Char} {t : Token}
    (h : scan accepted p (b ++ v) = some (t, rest ++ v))
    (hsame : ∀ t' : Terminal, (∀ n, t'.lexeme? (b ++ v) = some n → n ≤ b.length) →
      t'.lexeme? (b ++ w) = t'.lexeme? (b ++ v)) :
    scan accepted r (b ++ w) =
      some (⟨t.terminal, t.text, ⟨r, r.advance t.text⟩⟩, rest ++ w) := by
  obtain ⟨-, happend, -, -, -⟩ := lexeme?_of_scan h
  obtain ⟨n, hlongest, htext, -, hrest⟩ := scan_eq_some_iff.1 h
  have hbtext : b = t.text ++ rest := by
    rw [← List.append_assoc] at happend
    exact List.append_cancel_right happend
  have hn : (t.terminal, n) ∈ candidates accepted (b ++ v) := mem_of_longest hlongest
  have hlength : t.text.length = n := by
    obtain ⟨-, hle⟩ := Terminal.lexeme?_bounds (mem_candidates.1 hn).2
    rw [htext, List.length_take, Nat.min_eq_left hle]
  have hcandidates : candidates accepted (b ++ w) = candidates accepted (b ++ v) := by
    refine candidates_congr fun t' ht' => hsame t' ?_
    intro m hm
    have := le_of_longest hlongest (mem_candidates.2 ⟨ht', hm⟩)
    rw [hbtext, List.length_append]
    simp only at this
    omega
  refine scan_eq_some_iff.2 ⟨n, by rw [hcandidates]; exact hlongest, ?_, rfl, ?_⟩
  · rw [hbtext, List.append_assoc, ← hlength, List.take_left]
  · rw [hbtext, List.append_assoc, ← hlength, List.drop_left]

theorem scan_carry {accepted : Terminal → Bool} {p r : Position} {rest : List Char} {t : Token}
    (hstop : Stops b w) (hopen : KeepsOpen b v w)
    (h : scan accepted p (b ++ v) = some (t, rest ++ v)) :
    scan accepted r (b ++ w) =
      some (⟨t.terminal, t.text, ⟨r, r.advance t.text⟩⟩, rest ++ w) := by
  obtain ⟨-, happend, hne, hlexeme, -⟩ := lexeme?_of_scan h
  have hb : b ≠ [] := by
    rintro rfl
    rw [← List.append_assoc] at happend
    exact hne (List.append_eq_nil_iff.1 (List.append_cancel_right happend).symm).1
  exact scan_congr h fun t' hle => Terminal.lexeme?_carry hb hstop hopen hlexeme hle

end Carry

end TypedLinks.Luau
