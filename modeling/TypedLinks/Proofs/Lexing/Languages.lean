import Mathlib.Computability.Language
import TypedLinks.Proofs.Lexing.Scanning

/-!
# The languages of the terminals

Which texts the lexemes of each terminal are, as languages: classes of characters, joined by
concatenation, choice and repetition. Only a long bracket is more than that, since it closes on the
level that it opened with. A lexeme that is read is a word of the language of its terminal, and what
is passed over between two tokens is a row of blanks and comments.
-/

namespace TypedLinks.Luau

open scoped Computability

namespace Lexeme

/-! ## Parts of words -/

/-- One character of a class. -/
def character (p : Char → Bool) : Language Char := {w | ∃ c, p c = true ∧ w = [c]}

/-- One text. -/
def exactly (w : List Char) : Language Char := {w}

/-- A language once or more often. -/
def repeated (l : Language Char) : Language Char := l * l∗

/-- A language, or nothing. -/
def optionally (l : Language Char) : Language Char := 1 + l

/-- A backslash and the character that it takes with it. -/
def escapes : Language Char := exactly ['\\'] * character fun _ => true

/-! ## Names and numbers -/

/-- Names. -/
def names : Language Char := character isNameStart * (character isNamePart)∗

/-- A digit, and after it digits and underscores. -/
def digits : Language Char := character isDigit * (character isDigitOrUnderscore)∗

/-- Numbers with a base, that one of some letters tells. -/
def basedNumbers (letters : List Char) (digit : Char → Bool) : Language Char :=
  exactly ['0'] * (character letters.contains * repeated (character digit))

/-- The digits before an exponent. -/
def mantissas : Language Char :=
  digits * optionally (exactly ['.'] * (character isDigitOrUnderscore)∗) + exactly ['.'] * digits

/-- Exponents. -/
def exponents : Language Char :=
  character ['e', 'E'].contains * (optionally (character ['+', '-'].contains) * digits)

/-- Numbers: hexadecimal, binary and decimal ones. -/
def numbers : Language Char :=
  basedNumbers ['x', 'X'] (fun c => isHexDigit c || c = '_') +
    basedNumbers ['b', 'B'] (fun c => c = '0' || c = '1' || c = '_') +
    mantissas * optionally exponents

/-! ## Strings -/

/-- What stands between quotes. -/
def quotedPieces (quote : Char) : Language Char :=
  character (fun c => c ≠ quote && c ≠ '\\' && c ≠ '\n') + escapes

/-- Strings between two quotes. -/
def quotedBy (quote : Char) : Language Char :=
  exactly [quote] * ((quotedPieces quote)∗ * exactly [quote])

/-- Strings between double or single quotes. -/
def quotedStrings : Language Char := quotedBy '"' + quotedBy '\''

/-- Long brackets: the closing one is of the level of the opening one. -/
def longBrackets : Language Char :=
  {w | ∃ level body, w = '[' :: (List.replicate level '=' ++ '[' :: (body ++ closer level))}

/-- A character that has no meaning of its own between the braces of an interpolation. -/
def isBracedPart (c : Char) : Bool := !(['\x7b', '\x7d', '\x60', '"', '\''].contains c)

/-- What stands between the innermost braces. -/
def bracedPieces : Language Char := character isBracedPart + quotedStrings

/-- Braces inside an interpolation. -/
def bracedTexts : Language Char := exactly ['\x7b'] * (bracedPieces∗ * exactly ['\x7d'])

/-- The text of an interpolated string, between its interpolations. -/
def interpolatedText : Language Char :=
  character (fun c => c ≠ '\x60' && c ≠ '\\' && c ≠ '\x7b') + escapes

/-- Interpolated strings whose interpolations are made of some pieces. -/
def interpolatedBy (pieces : Language Char) : Language Char :=
  exactly ['\x60'] *
    ((interpolatedText + exactly ['\x7b'] * (pieces∗ * exactly ['\x7d']))∗ * exactly ['\x60'])

/-- Interpolated strings inside an interpolation. -/
def innerInterpolatedStrings : Language Char := interpolatedBy (bracedPieces + bracedTexts)

/-- Interpolated strings. -/
def interpolatedStrings : Language Char :=
  interpolatedBy (bracedPieces + bracedTexts + innerInterpolatedStrings)

/-! ## Between tokens -/

/-- Runs of white space. -/
def spaces : Language Char := repeated (character isSpace)

/-- Comments. -/
def comments : Language Char :=
  exactly ['-', '-'] * (longBrackets + (character (· ≠ '\n'))∗)

end Lexeme

open Lexeme

/-- The lexemes of a terminal. -/
def Terminal.language : Terminal → Language Char
  | .name => names
  | .number => numbers
  | .quoted => quotedStrings + longBrackets
  | .interpolated => interpolatedStrings
  | .compound => {w | w ∈ compoundOperators}
  | t => {w | t.spelling? = some w}

/-- What may stand between two tokens: white space and comments in any number and order. -/
def trivia : Language Char := (spaces + comments)∗

namespace Lexeme

/-! ## Words of joined languages -/

section Words

variable {l m : Language Char} {p : Char → Bool} {c : Char} {v w : List Char}

theorem append_mem_kstar (hv : v ∈ l) (hw : w ∈ l∗) : v ++ w ∈ l∗ := by
  obtain ⟨L, rfl, hL⟩ := Language.mem_kstar.1 hw
  exact Language.join_mem_kstar (L := v :: L) (List.forall_mem_cons.2 ⟨hv, hL⟩)

theorem mem_kstar_of_mem (h : w ∈ l) : w ∈ l∗ := by
  simpa using append_mem_kstar h (Language.nil_mem_kstar l)

theorem singleton_mem_character (h : p c = true) : [c] ∈ character p := ⟨c, h, rfl⟩

theorem cons_mem_exactly_mul (h : w ∈ l) : c :: w ∈ exactly [c] * l :=
  Language.append_mem_mul (a := [c]) rfl h

theorem cons_mem_character_mul (hc : p c = true) (h : w ∈ l) : c :: w ∈ character p * l :=
  Language.append_mem_mul (singleton_mem_character hc) h

theorem mem_kstar_character (h : ∀ c ∈ w, p c = true) : w ∈ (character p)∗ := by
  induction w with
  | nil => exact Language.nil_mem_kstar _
  | cons c w ih =>
    rw [List.forall_mem_cons] at h
    exact append_mem_kstar (singleton_mem_character h.1) (ih h.2)

theorem take_run_mem (p : Char → Bool) (cs : List Char) : cs.take (run p cs) ∈ (character p)∗ :=
  mem_kstar_character fun _ => mem_take_run p

theorem nil_mem_optionally (l : Language Char) : [] ∈ optionally l :=
  (Language.mem_add _ _ _).2 (.inl rfl)

theorem mem_optionally (h : w ∈ l) : w ∈ optionally l := (Language.mem_add _ _ _).2 (.inr h)

theorem mem_add_left (h : w ∈ l) : w ∈ l + m := (Language.mem_add _ _ _).2 (.inl h)

theorem mem_add_right (h : w ∈ m) : w ∈ l + m := (Language.mem_add _ _ _).2 (.inr h)

theorem take_run_mem_repeated {cs : List Char} (h : run p cs ≠ 0) :
    cs.take (run p cs) ∈ repeated (character p) := by
  cases cs with
  | nil => exact absurd rfl h
  | cons c cs =>
    rw [run_cons] at h ⊢
    split at h
    · rename_i hc
      rw [if_pos hc, List.take_succ_cons]
      exact cons_mem_character_mul hc (take_run_mem p cs)
    · exact absurd rfl h

end Words

/-! ## Names and numbers -/

section Numbers

variable {cs : List Char} {n : Nat}

theorem mem_names (h : name? cs = some n) : cs.take n ∈ names := by
  cases cs with
  | nil => contradiction
  | cons c cs =>
    rw [name?] at h
    split at h
    · rename_i hc
      cases h
      rw [Nat.add_comm, List.take_succ_cons]
      exact cons_mem_character_mul hc (take_run_mem _ _)
    · contradiction

theorem take_digits_mem {d : Char} (hd : isDigit d = true) (cs : List Char) :
    d :: cs.take (run isDigitOrUnderscore cs) ∈ digits :=
  cons_mem_character_mul hd (take_run_mem _ _)

theorem mem_basedNumbers {letters : List Char} {digit : Char → Bool} {base : Char}
    (hbase : base ∈ letters) (h : based digit cs = some n) :
    ('0' :: base :: cs).take n ∈ basedNumbers letters digit := by
  unfold based at h
  simp only at h
  split at h
  · contradiction
  · rename_i hrun
    cases h
    rw [Nat.add_comm, List.take_succ_cons, List.take_succ_cons]
    exact cons_mem_exactly_mul (cons_mem_character_mul (List.contains_iff_mem.2 hbase)
      (take_run_mem_repeated hrun))

theorem mem_mantissas (h : mantissa? cs = some n) : cs.take n ∈ mantissas := by
  cases cs with
  | nil => contradiction
  | cons c cs =>
    by_cases hc : c = '.'
    · subst hc
      rw [mantissa?_point] at h
      split at h
      · rename_i hdigit
        cases h
        cases cs with
        | nil => contradiction
        | cons d cs =>
          rw [Nat.add_comm, List.take_succ_cons, List.take_succ_cons]
          exact mem_add_right (cons_mem_exactly_mul (take_digits_mem hdigit cs))
      · contradiction
    · rw [mantissa?_cons hc] at h
      split at h
      · rename_i hdigit
        cases h
        rw [Nat.add_assoc, Nat.add_comm, List.take_succ_cons, List.take_add, ← List.cons_append]
        refine mem_add_left (Language.append_mem_mul (take_digits_mem hdigit cs) ?_)
        generalize cs.drop (run isDigitOrUnderscore cs) = rest
        unfold fraction
        split
        · rw [Nat.add_comm, List.take_succ_cons]
          exact mem_optionally (cons_mem_exactly_mul (take_run_mem _ _))
        · exact nil_mem_optionally _
      · contradiction

theorem take_signedDigits_mem (h : signedDigits cs ≠ 0) :
    cs.take (signedDigits cs) ∈ optionally (character ['+', '-'].contains) * digits := by
  cases cs with
  | nil => exact absurd rfl h
  | cons c cs =>
    rw [signedDigits] at h ⊢
    split at h
    · rename_i hsign
      rw [if_pos hsign]
      split at h
      · rename_i hdigit
        rw [if_pos hdigit]
        cases cs with
        | nil => contradiction
        | cons d cs =>
          rw [Nat.add_comm, List.take_succ_cons, List.take_succ_cons]
          have hc : ['+', '-'].contains c = true := by simpa using hsign
          exact Language.append_mem_mul (a := [c]) (mem_optionally (singleton_mem_character hc))
            (take_digits_mem hdigit cs)
      · exact absurd rfl h
    · rename_i hsign
      rw [if_neg hsign]
      split at h
      · rename_i hdigit
        rw [if_pos hdigit, Nat.add_comm, List.take_succ_cons]
        exact Language.append_mem_mul (nil_mem_optionally _) (take_digits_mem hdigit cs)
      · exact absurd rfl h

theorem take_exponent_mem (cs : List Char) : cs.take (exponent cs) ∈ optionally exponents := by
  cases cs with
  | nil => exact nil_mem_optionally _
  | cons e cs =>
    rw [exponent_cons]
    split
    · rename_i he
      split
      · exact nil_mem_optionally _
      · rename_i hdigits
        have he : ['e', 'E'].contains e = true := by simpa using he
        rw [Nat.add_comm, List.take_succ_cons]
        exact mem_optionally (cons_mem_character_mul he (take_signedDigits_mem hdigits))
    · exact nil_mem_optionally _

theorem mem_numbers_of_decimal? (h : decimal? cs = some n) : cs.take n ∈ numbers := by
  rw [decimal?_eq] at h
  obtain ⟨k, hk, rfl⟩ := Option.map_eq_some_iff.1 h
  rw [List.take_add]
  exact mem_add_right (Language.append_mem_mul (mem_mantissas hk) (take_exponent_mem _))

theorem mem_numbers (h : number? cs = some n) : cs.take n ∈ numbers := by
  cases cs with
  | nil => contradiction
  | cons c cs =>
    by_cases hc : c = '0'
    · subst hc
      cases cs with
      | nil =>
        rw [number?_single] at h
        exact mem_numbers_of_decimal? h
      | cons base cs =>
        rw [number?_zero, Option.or_eq_some_iff] at h
        rcases h with h | ⟨-, h⟩
        · unfold prefixed? at h
          split at h
          · rename_i hbase
            exact mem_add_left (mem_add_left (mem_basedNumbers (by simpa using hbase) h))
          · split at h
            · rename_i hbase
              exact mem_add_left (mem_add_right (mem_basedNumbers (by simpa using hbase) h))
            · contradiction
        · exact mem_numbers_of_decimal? h
    · rw [number?_of_ne hc] at h
      exact mem_numbers_of_decimal? h

end Numbers

/-! ## Strings -/

section Strings

variable {cs : List Char} {n : Nat}

/-- A backslash that is followed by nothing, or takes a character with it, is no plain one. -/
theorem ne_backslash_of_plain {c : Char}
    (hescape : ∀ (d : Char) (ds : List Char), c = '\\' → cs = d :: ds → False)
    (hlast : c = '\\' → cs = [] → False) : c ≠ '\\' := by
  rintro rfl
  cases cs with
  | nil => exact hlast rfl rfl
  | cons d ds => exact hescape d ds rfl rfl

theorem escape_mem (c : Char) : ['\\', c] ∈ escapes :=
  cons_mem_exactly_mul (singleton_mem_character rfl)

theorem take_closeQuote_mem {quote : Char} (h : closeQuote quote cs = some n) :
    cs.take n ∈ (quotedPieces quote)∗ * exactly [quote] := by
  have hpiece {v w : List Char} (hv : v ∈ quotedPieces quote)
      (hw : w ∈ (quotedPieces quote)∗ * exactly [quote]) :
      v ++ w ∈ (quotedPieces quote)∗ * exactly [quote] := by
    obtain ⟨x, hx, y, hy, rfl⟩ := Language.mem_mul.1 hw
    rw [← List.append_assoc]
    exact Language.append_mem_mul (append_mem_kstar hv hx) hy
  fun_induction closeQuote quote cs generalizing n with
  | case1 => contradiction
  | case2 => contradiction
  | case3 c cs ih =>
    obtain ⟨k, hk, rfl⟩ := Option.map_eq_some_iff.1 h
    exact hpiece (v := ['\\', c]) (mem_add_right (escape_mem c)) (ih hk)
  | case4 cs =>
    cases h
    exact Language.append_mem_mul (Language.nil_mem_kstar _) (b := [quote]) rfl
  | case5 => contradiction
  | case6 c cs hlast hescape hquote hline ih =>
    obtain ⟨k, hk, rfl⟩ := Option.map_eq_some_iff.1 h
    have hc : c ≠ '\\' := ne_backslash_of_plain hescape hlast
    exact hpiece (v := [c]) (mem_add_left (singleton_mem_character (by simp [hquote, hc, hline])))
      (ih hk)

theorem take_closeLong {level : Nat} (h : closeLong level cs = some n) :
    ∃ body, cs.take n = body ++ closer level := by
  induction cs generalizing n with
  | nil => contradiction
  | cons c cs ih =>
    simp only [closeLong] at h
    split at h
    · rename_i hprefix
      cases h
      rw [List.isPrefixOf_iff_prefix, List.prefix_iff_eq_take, length_closer] at hprefix
      exact ⟨[], hprefix.symm⟩
    · obtain ⟨k, hk, rfl⟩ := Option.map_eq_some_iff.1 h
      obtain ⟨body, hbody⟩ := ih hk
      exact ⟨c :: body, by rw [List.take_succ_cons, hbody, List.cons_append]⟩

theorem mem_longBrackets (h : longBracket? cs = some n) : cs.take n ∈ longBrackets := by
  rw [longBracket?_eq] at h
  obtain ⟨level, hlevel, h⟩ := Option.bind_eq_some_iff.1 h
  obtain ⟨k, hk, rfl⟩ := Option.map_eq_some_iff.1 h
  obtain ⟨rest, rfl⟩ := longLevel?_eq_some_iff.1 hlevel
  obtain ⟨body, hbody⟩ := take_closeLong hk
  have hopening : '[' :: (List.replicate level '=' ++ '[' :: rest) =
      ('[' :: (List.replicate level '=' ++ ['['])) ++ rest := by simp
  have hlength : ('[' :: (List.replicate level '=' ++ ['['])).length = level + 2 := by simp
  refine ⟨level, body, ?_⟩
  rw [List.take_add, hbody, hopening, ← hlength, List.take_left]
  simp

theorem mem_quotedStrings {quote : Char} (hquote : quote = '"' ∨ quote = '\'')
    (h : closeQuote quote cs = some n) : quote :: cs.take n ∈ quotedStrings := by
  have hmem : quote :: cs.take n ∈ quotedBy quote := cons_mem_exactly_mul (take_closeQuote_mem h)
  rcases hquote with rfl | rfl
  · exact mem_add_left hmem
  · exact mem_add_right hmem

theorem mem_of_string? (h : string? cs = some n) : cs.take n ∈ quotedStrings + longBrackets := by
  rcases string?_cases h with ⟨quote, rest, k, hquote, rfl, hk, rfl⟩ | hlong
  · exact mem_add_left (mem_quotedStrings hquote hk)
  · exact mem_add_right (mem_longBrackets hlong)

end Strings

/-! ## Interpolated strings -/

/-- What stands between braces that allow further braces, or inner strings. -/
def piecesInBraces (allowBraces allowStrings : Bool) : Language Char :=
  bracedPieces + (if allowBraces then bracedTexts else 0) +
    (if allowStrings then innerInterpolatedStrings else 0)

namespace Mode

/-- What an open mode is made of. -/
def pieces : Mode → Language Char
  | text inner =>
    interpolatedText +
      exactly ['\x7b'] * ((piecesInBraces true (!inner))∗ * exactly ['\x7d'])
  | braces allowBraces allowStrings => piecesInBraces allowBraces allowStrings
  | quoted quote => quotedPieces quote

/-- The character that closes a mode. -/
def closing : Mode → Char
  | text _ => '\x60'
  | braces _ _ => '\x7d'
  | quoted quote => quote

/-- The rest of a text that starts in some open modes, innermost first, and ends where the outermost
is closed. -/
def closed : List Mode → Language Char
  | [] => 1
  | m :: up => m.pieces∗ * (exactly [m.closing] * closed up)

variable {m inner : Mode} {up : List Mode} {c : Char} {v w : List Char}

theorem append_mem_closed (hv : v ∈ m.pieces) (hw : w ∈ closed (m :: up)) :
    v ++ w ∈ closed (m :: up) := by
  obtain ⟨x, hx, y, hy, rfl⟩ := Language.mem_mul.1 hw
  rw [← List.append_assoc]
  exact Language.append_mem_mul (append_mem_kstar hv hx) hy

/-- The character that closes the innermost mode. -/
theorem closing_cons_mem (hw : w ∈ closed up) : m.closing :: w ∈ closed (m :: up) :=
  Language.append_mem_mul (Language.nil_mem_kstar _) (cons_mem_exactly_mul hw)

/-- A character that opens a mode inside the innermost one. -/
theorem opening_cons_mem
    (hopen : ∀ v, v ∈ exactly [c] * (inner.pieces∗ * exactly [inner.closing]) → v ∈ m.pieces)
    (hw : w ∈ closed (inner :: m :: up)) : c :: w ∈ closed (m :: up) := by
  obtain ⟨x, hx, y, hy, rfl⟩ := Language.mem_mul.1 hw
  obtain ⟨_, rfl, z, hz, rfl⟩ := Language.mem_mul.1 hy
  have hpiece : c :: (x ++ [inner.closing]) ∈ m.pieces :=
    hopen _ (cons_mem_exactly_mul (Language.append_mem_mul hx rfl))
  simpa using append_mem_closed hpiece hz

end Mode

open Mode in
theorem take_closeModes_mem {modes : List Mode} {cs : List Char} {n : Nat}
    (h : closeModes modes cs = some n) : cs.take n ∈ closed modes := by
  have hstep {c : Char} {k : Option Nat} {cs : List Char} {l : Language Char} {n : Nat}
      (h : (· + 1) <$> k = some n) (hk : ∀ m, k = some m → c :: cs.take m ∈ l) :
      (c :: cs).take n ∈ l := by
    obtain ⟨m, hm, rfl⟩ := Option.map_eq_some_iff.1 h
    exact hk m hm
  fun_induction closeModes modes cs generalizing n with
  | case1 =>
    cases h
    rfl
  | case3 _ _ c _ ih =>
    obtain ⟨k, hk, rfl⟩ := Option.map_eq_some_iff.1 h
    exact append_mem_closed (v := ['\\', c]) (mem_add_left (mem_add_right (escape_mem c))) (ih hk)
  | case5 _ _ _ ih => exact hstep h fun _ hm => closing_cons_mem (ih hm)
  | case6 inner _ _ ih =>
    have hopen (v : List Char) (hv : v ∈ exactly ['\x7b'] *
        ((braces true (!inner)).pieces∗ * exactly [(braces true (!inner)).closing])) :
        v ∈ (text inner).pieces := mem_add_right hv
    exact hstep h fun _ hm => opening_cons_mem hopen (ih hm)
  | case7 _ _ c _ hescape hlast hquote hbrace ih =>
    have hc : c ≠ '\\' := ne_backslash_of_plain hescape hlast
    refine hstep h fun _ hm => append_mem_closed (v := [c]) ?_ (ih hm)
    exact mem_add_left (mem_add_left (singleton_mem_character (by simp_all)))
  | case8 _ _ c _ ih =>
    obtain ⟨k, hk, rfl⟩ := Option.map_eq_some_iff.1 h
    exact append_mem_closed (v := ['\\', c]) (mem_add_right (escape_mem c)) (ih hk)
  | case11 _ c _ _ _ _ ih => exact hstep h fun _ hm => closing_cons_mem (m := .quoted c) (ih hm)
  | case12 _ _ c _ hescape hlast hline hquote ih =>
    have hc : c ≠ '\\' := ne_backslash_of_plain hescape hlast
    refine hstep h fun _ hm => append_mem_closed (v := [c]) ?_ (ih hm)
    exact mem_add_left (singleton_mem_character (by simp_all))
  | case13 _ _ _ _ ih => exact hstep h fun _ hm => closing_cons_mem (ih hm)
  | case14 allowStrings _ _ ih =>
    refine hstep h fun _ hm => opening_cons_mem (fun _ hv => ?_) (ih hm)
    refine mem_add_left (mem_add_right ?_)
    simpa [pieces, piecesInBraces, bracedTexts, closing] using hv
  | case16 allowBraces _ _ ih =>
    refine hstep h fun _ hm => opening_cons_mem (fun _ hv => mem_add_right ?_) (ih hm)
    simpa [pieces, piecesInBraces, innerInterpolatedStrings, interpolatedBy, closing] using hv
  | case18 _ _ _ _ ih =>
    refine hstep h fun _ hm => opening_cons_mem (fun _ hv => ?_) (ih hm)
    exact mem_add_left (mem_add_left (mem_add_right (mem_add_left hv)))
  | case19 _ _ _ _ ih =>
    refine hstep h fun _ hm => opening_cons_mem (fun _ hv => ?_) (ih hm)
    exact mem_add_left (mem_add_left (mem_add_right (mem_add_right hv)))
  | case20 _ _ _ c _ _ _ _ _ _ ih =>
    refine hstep h fun _ hm => append_mem_closed (v := [c]) ?_ (ih hm)
    refine mem_add_left (mem_add_left (mem_add_left (singleton_mem_character ?_)))
    simp_all [isBracedPart]
  | _ => contradiction

theorem mem_interpolatedStrings {cs : List Char} {n : Nat} (h : interpolated? cs = some n) :
    cs.take n ∈ interpolatedStrings := by
  obtain ⟨rest, k, rfl, hk, rfl⟩ := interpolated?_cases h
  rw [List.take_succ_cons]
  refine cons_mem_exactly_mul ?_
  simpa [Mode.closed, Mode.pieces, Mode.closing, piecesInBraces] using take_closeModes_mem hk

end Lexeme

/-! ## Tokens and gaps -/

/-- The lexemes of a terminal are words of its language. -/
theorem Terminal.mem_language {t : Terminal} {cs : List Char} {n : Nat}
    (h : t.lexeme? cs = some n) : cs.take n ∈ t.language := by
  by_cases hname : t = .name
  · subst hname
    exact mem_names h
  by_cases hnumber : t = .number
  · subst hnumber
    exact mem_numbers h
  by_cases hflat : t.isFlat
  · rw [lexeme?_eq_spelled? hname hnumber hflat] at h
    obtain ⟨s, hs, htake, -⟩ := prefix_of_spelled? h
    rw [htake]
    by_cases hcompound : t = .compound
    · subst hcompound
      exact hs
    · have hspelling : t.spelling? = some s := by
        have : t.spellings = t.spelling?.toList := by cases t <;> first | rfl | contradiction
        rw [this, Option.mem_toList] at hs
        exact hs
      have : t.language = {w | t.spelling? = some w} := by
        cases t <;> first | rfl | contradiction
      rw [this]
      exact hspelling
  · cases t <;> first | contradiction | skip
    · exact mem_interpolatedStrings h
    · exact mem_of_string? h

theorem space_mem {cs : List Char} {n : Nat} (h : space? cs = some n) : cs.take n ∈ spaces := by
  unfold space? at h
  simp only at h
  split at h
  · contradiction
  · rename_i hrun
    cases h
    exact take_run_mem_repeated hrun

theorem comment_mem {cs : List Char} {n : Nat} (h : comment? cs = some n) :
    cs.take n ∈ comments := by
  unfold comment? at h
  split at h
  · rename_i cs
    cases h
    rw [Nat.add_comm, List.take_succ_cons, List.take_succ_cons]
    refine Language.append_mem_mul (a := ['-', '-']) rfl ?_
    cases hlong : longBracket? cs with
    | some n => exact mem_add_left (mem_longBrackets hlong)
    | none =>
      rw [Option.getD_none]
      exact mem_add_right (by simpa using take_run_mem (· ≠ '\n') cs)
  · contradiction

theorem take_triviaLength_mem (cs : List Char) : cs.take (triviaLength cs) ∈ trivia := by
  unfold triviaLength
  cases hcomment : comment? cs with
  | some n => exact mem_kstar_of_mem (mem_add_right (comment_mem hcomment))
  | none =>
    cases hspace : space? cs with
    | some n => exact mem_kstar_of_mem (mem_add_left (space_mem hspace))
    | none => exact Language.nil_mem_kstar _

/-- A gap is a row of white space and comments, the first of which may be partly read. -/
theorem gap_mem_trivia (n : Nat) (cs : List Char) :
    ∃ w ∈ trivia, gap n cs = cs.take n ++ w := by
  induction cs generalizing n with
  | nil => exact ⟨[], Language.nil_mem_kstar _, by simp⟩
  | cons c cs ih =>
    cases n with
    | succ n =>
      obtain ⟨w, hw, hgap⟩ := ih n
      exact ⟨w, hw, by rw [gap_succ_cons, hgap, List.take_succ_cons, List.cons_append]⟩
    | zero =>
      refine ⟨gap 0 (c :: cs), ?_, rfl⟩
      cases hn : triviaLength (c :: cs) with
      | zero =>
        rw [gap_zero_of_triviaLength hn]
        exact Language.nil_mem_kstar _
      | succ n =>
        obtain ⟨w, hw, hgap⟩ := ih n
        have hfirst := take_triviaLength_mem (c :: cs)
        rw [hn, List.take_succ_cons] at hfirst
        rw [gap_zero_cons hn, hgap, ← List.cons_append]
        exact (kstar_mul_kstar (spaces + comments)).le (Language.append_mem_mul hfirst hw)

end TypedLinks.Luau
