import TypedLinks.Luau.StringLiteral
import TypedLinks.Proofs.Lexing.Written

/-!
# Quoted texts and brackets

Any text can be put between double quotes: with a backslash before each quote and each backslash, and
the escape `\n` for each line feed, it is one token, and the literal stands for the text. Brackets
stand for themselves, apart from one that would open a long bracket.
-/

namespace TypedLinks.Luau

open Lexeme

/-! ## Quoting -/

/-- A character as it is written between double quotes. -/
def escapedChar (c : Char) : List Char :=
  if c = '"' then ['\\', '"'] else if c = '\\' then ['\\', '\\']
  else if c = '\n' then ['\\', 'n'] else [c]

/-- A text as it is written between double quotes. -/
def escaped (cs : List Char) : List Char := cs.flatMap escapedChar

/-- A text as a string literal. -/
def quotedLiteral (cs : List Char) : List Char := '"' :: (escaped cs ++ ['"'])

/-- A character is written as an escape of one character, or as itself. -/
theorem escapedChar_cases (c : Char) :
    (∃ e, (e = '"' ∨ e = '\\' ∨ e = 'n') ∧ escapedChar c = ['\\', e] ∧
        StringLiteral.simpleEscape e = c) ∨
      c ≠ '"' ∧ c ≠ '\\' ∧ c ≠ '\n' ∧ escapedChar c = [c] := by
  by_cases hquote : c = '"'
  · subst hquote
    exact .inl ⟨'"', .inl rfl, rfl, rfl⟩
  by_cases hbackslash : c = '\\'
  · subst hbackslash
    exact .inl ⟨'\\', .inr (.inl rfl), rfl, rfl⟩
  by_cases hline : c = '\n'
  · subst hline
    exact .inl ⟨'n', .inr (.inr rfl), rfl, rfl⟩
  · refine .inr ⟨hquote, hbackslash, hline, ?_⟩
    simp [escapedChar, hquote, hbackslash, hline]

theorem escaped_cons (c : Char) (cs : List Char) : escaped (c :: cs) = escapedChar c ++ escaped cs :=
  List.flatMap_cons

/-- A quoted text ends at the quote behind it. -/
theorem closeQuote_escaped (cs rest : List Char) :
    closeQuote '"' (escaped cs ++ '"' :: rest) = some ((escaped cs).length + 1) := by
  induction cs with
  | nil => rfl
  | cons c cs ih =>
    rw [escaped_cons, List.append_assoc]
    rcases escapedChar_cases c with ⟨e, -, he, -⟩ | ⟨hquote, hbackslash, hline, he⟩
    · rw [he, List.cons_append, List.cons_append, List.nil_append, closeQuote, ih]
      simp
    · rw [he, List.singleton_append, closeQuote_cons hbackslash, if_neg hquote, if_neg hline, ih]
      simp

theorem lexeme_quotedLiteral (cs rest : List Char) :
    Terminal.quoted.lexeme? (quotedLiteral cs ++ rest) = some (quotedLiteral cs).length := by
  change string? ('"' :: (escaped cs ++ ['"'] ++ rest)) = _
  rw [List.append_assoc, List.singleton_append, string?, closeQuote_escaped]
  simp [quotedLiteral]

/-- A quoted text is scanned as a string where strings are accepted. -/
theorem scan_quotedLiteral {accepted : Terminal → Bool} (hacc : accepted .quoted = true)
    (cs rest : List Char) (p : Position) :
    scan accepted p (quotedLiteral cs ++ rest) =
      some (⟨.quoted, quotedLiteral cs, ⟨p, p.advance (quotedLiteral cs)⟩⟩, rest) := by
  refine scan_of_greatest hacc (lexeme_quotedLiteral cs rest) (fun u n _ hn => ?_) p
  have hu : u = .quoted := by
    by_cases hflat : u.isFlat = true
    · exact absurd rfl (not_quote_of_lexeme? hflat hn).1
    · cases u <;> first | exact absurd rfl hflat | skip
      · exact absurd (head_of_interpolated hn) (by decide)
      · rfl
  subst hu
  rw [lexeme_quotedLiteral] at hn
  exact .inr ⟨(Option.some.inj hn).symm, .inl rfl⟩

/-! ## Decoding -/

namespace StringLiteral

/-- The escapes that a quoted text holds stand for one character. -/
theorem escape_written {e : Char} (h : e = '"' ∨ e = '\\' ∨ e = 'n') (cs : List Char) :
    escape e cs = (0, .ok [CodePoint.ofChar (simpleEscape e)]) := by
  rcases h with rfl | rfl | rfl <;> rfl

theorem items_escaped (cs : List Char) : items 0 (escaped cs) = .ok (Text.ofChars cs) := by
  induction cs with
  | nil => rfl
  | cons c cs ih =>
    rw [escaped_cons]
    rcases escapedChar_cases c with ⟨e, hescape, he, rfl⟩ | ⟨-, hbackslash, -, he⟩
    · have hitem : item '\\' (e :: escaped cs) =
          (1, .ok [CodePoint.ofChar (simpleEscape e)]) := by
        rw [item, escape_written hescape]
      rw [he, List.cons_append, List.cons_append, List.nil_append, items, hitem]
      simp only [items, ih]
      rfl
    · have hitem : item c (escaped cs) = (0, .ok [CodePoint.ofChar c]) := by
        unfold item
        split
        · exact absurd rfl hbackslash
        · rfl
      rw [he, List.singleton_append, items, hitem]
      simp only [ih]
      rfl

/-- Between quotes stands a row of items. -/
theorem decode_quoted {q : Char} (hq : q ∈ ['"', '\'']) (close : Char) (body : List Char) :
    decode (q :: (body ++ [close])) = items 0 body := by
  have hlevel : longLevel? (q :: (body ++ [close])) = none := by
    rcases List.mem_pair.1 hq with rfl | rfl <;> rfl
  have hinside : inside 1 (q :: (body ++ [close])) = body := by
    rw [inside, List.drop_succ_cons, List.drop_zero, List.length_cons, List.length_append,
      List.length_singleton]
    exact List.take_left
  rw [decode, hlevel]
  dsimp only
  rw [hinside]

/-- The literal of a text stands for the text. -/
theorem decode_quotedLiteral (cs : List Char) :
    decode (quotedLiteral cs) = .ok (Text.ofChars cs) :=
  (decode_quoted List.mem_cons_self '"' (escaped cs)).trans (items_escaped cs)

end StringLiteral

/-! ## Brackets -/

/-- The brackets that are tokens of their own. -/
def brackets : List (Terminal × Char) :=
  [(.leftParen, '('), (.rightParen, ')'), (.leftBracket, '['), (.rightBracket, ']')]

theorem brackets_checked :
    ∀ b ∈ brackets, b.1.spelling? = some [b.2] ∧ isNameStart b.2 = false ∧ isDigit b.2 = false ∧
      isSpace b.2 = false ∧ b.2 ∉ ['.', '-', '\x60', '"', '\''] ∧
      ∀ u ∈ Terminal.all, ∀ s ∈ u.spellings, s.head? = some b.2 → u = b.1 ∧ s.length = 1 := by
  decide

/-- Apart from strings, only the bracket itself starts with a bracket. -/
theorem bracket_of_lexeme? {t u : Terminal} {c : Char} {rest : List Char} {n : Nat}
    (ht : (t, c) ∈ brackets) (hflat : u.isFlat = true) (hn : u.lexeme? (c :: rest) = some n) :
    u = t ∧ n = 1 := by
  obtain ⟨-, hname, hdigit, -, hother, hspellings⟩ := brackets_checked _ ht
  simp only [List.mem_cons, not_or] at hother
  by_cases huname : u = .name
  · subst huname
    simp [Terminal.lexeme?, name?, hname] at hn
  by_cases hunumber : u = .number
  · subst hunumber
    change number? (c :: rest) = some n at hn
    rw [number?_eq_none hdigit hother.1] at hn
    contradiction
  rw [Terminal.lexeme?_eq_spelled? huname hunumber hflat] at hn
  obtain ⟨s, hs, htake, rfl⟩ := prefix_of_spelled? hn
  have hhead : s.head? = some c := by
    cases s with
    | nil => exact absurd hs (Terminal.nil_not_mem_spellings u)
    | cons d s =>
      rw [List.length_cons, List.take_succ_cons, List.cons.injEq] at htake
      rw [htake.1]
      rfl
  exact hspellings u (Terminal.mem_all u) s hs hhead

/-- A bracket is scanned where it is accepted, if it opens no long bracket. -/
theorem scan_bracket {accepted : Terminal → Bool} {t : Terminal} {c : Char} {rest : List Char}
    (ht : (t, c) ∈ brackets) (hacc : accepted t = true)
    (hrest : c = '[' → ∀ d, rest.head? = some d → d ≠ '[' ∧ d ≠ '=') (p : Position) :
    scan accepted p ([c] ++ rest) = some (⟨t, [c], ⟨p, p.advance [c]⟩⟩, rest) := by
  obtain ⟨hspelling, -, -, -, hother, -⟩ := brackets_checked _ ht
  dsimp only at hspelling
  simp only [List.mem_cons, List.not_mem_nil, or_false, not_or] at hother
  obtain ⟨-, -, hback, hdouble, hsingle⟩ := hother
  refine scan_of_greatest hacc (Terminal.lexeme?_of_spelling? hspelling rest) (fun u n _ hn => ?_) p
  rw [List.singleton_append] at hn
  by_cases huflat : u.isFlat = true
  · obtain ⟨rfl, rfl⟩ := bracket_of_lexeme? ht huflat hn
    exact .inr ⟨rfl, .inl rfl⟩
  · cases u <;> first | exact absurd rfl huflat | skip
    · exact absurd (head_of_interpolated hn) hback
    · change string? (c :: rest) = some n at hn
      rw [string?_of_ne hdouble hsingle, longBracket?_eq] at hn
      -- What follows a left bracket makes it no long one.
      obtain ⟨level, hlevel, -⟩ := Option.bind_eq_some_iff.1 hn
      obtain ⟨x, hx⟩ := longLevel?_eq_some_iff.1 hlevel
      obtain ⟨rfl, rfl⟩ := List.cons.inj hx
      have hnone := longLevel?_append_eq_none (b := ['[']) rfl (hrest rfl)
      rw [List.singleton_append, hlevel] at hnone
      contradiction

end TypedLinks.Luau
