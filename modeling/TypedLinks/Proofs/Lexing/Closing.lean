import TypedLinks.Proofs.Lexing.Flat

/-!
# Quotes and long brackets

Strings and long brackets are read up to the quote or bracket that closes them. Those that are closed
are closed by their own last characters, whatever follows.
-/

namespace TypedLinks.Luau.Lexeme

/-! ## Quotes -/

theorem closeQuote_cons {quote c : Char} (hc : c ≠ '\\') (cs : List Char) :
    closeQuote quote (c :: cs) =
      if c = quote then some 1
      else if c = '\n' then none
      else (· + 1) <$> closeQuote quote cs := by
  rw [closeQuote]
  · intro h
    exact absurd h hc
  · intro d cs' h
    exact absurd h hc

/-- A quoted text is closed by its own last character, whatever follows. -/
theorem closeQuote_take_append {quote : Char} {cs : List Char} {n : Nat}
    (h : closeQuote quote cs = some n) (w : List Char) :
    closeQuote quote (cs.take n ++ w) = some n := by
  fun_induction closeQuote quote cs generalizing n with
  | case1 => contradiction
  | case2 => contradiction
  | case3 c cs ih =>
    obtain ⟨k, hk, rfl⟩ := Option.map_eq_some_iff.1 h
    simp only [List.take_succ_cons, List.cons_append, closeQuote, ih hk]
    rfl
  | case4 cs hlast hescape =>
    cases h
    have hc : quote ≠ '\\' := by
      rintro rfl
      cases cs with
      | nil => exact hlast rfl rfl
      | cons d ds => exact hescape d ds rfl rfl
    rw [List.take_succ_cons, List.take_zero, List.cons_append, closeQuote_cons hc, if_pos rfl]
  | case5 => contradiction
  | case6 c cs hlast hescape hquote hline ih =>
    obtain ⟨k, hk, rfl⟩ := Option.map_eq_some_iff.1 h
    have hc : c ≠ '\\' := by
      rintro rfl
      cases cs with
      | nil => exact hlast rfl rfl
      | cons d ds => exact hescape d ds rfl rfl
    rw [List.take_succ_cons, List.cons_append, closeQuote_cons hc, if_neg hquote, if_neg hline,
      ih hk]
    rfl

theorem closeQuote_le_length {quote : Char} {cs : List Char} {n : Nat}
    (h : closeQuote quote cs = some n) : n ≤ cs.length := by
  fun_induction closeQuote quote cs generalizing n with
  | case1 => contradiction
  | case2 => contradiction
  | case3 c cs ih =>
    obtain ⟨k, hk, rfl⟩ := Option.map_eq_some_iff.1 h
    have := ih hk
    simp only [List.length_cons]
    omega
  | case4 cs hlast hescape =>
    cases h
    simp
  | case5 => contradiction
  | case6 c cs hlast hescape hquote hline ih =>
    obtain ⟨k, hk, rfl⟩ := Option.map_eq_some_iff.1 h
    have := ih hk
    simp only [List.length_cons]
    omega

/-! ## Long brackets -/

theorem longLevel?_eq_some_iff {cs : List Char} {level : Nat} :
    longLevel? cs = some level ↔
      ∃ rest, cs = '[' :: (List.replicate level '=' ++ '[' :: rest) := by
  constructor
  · intro h
    unfold longLevel? at h
    split at h
    · rename_i cs
      simp only at h
      split at h
      · rename_i hhead
        cases h
        obtain ⟨rest, hrest⟩ := List.head?_eq_some_iff.1 hhead
        have hrun : cs.take (run (· = '=') cs) = List.replicate (run (· = '=') cs) '=' := by
          rw [List.eq_replicate_iff]
          refine ⟨by rw [List.length_take, Nat.min_eq_left (run_le_length _ _)], ?_⟩
          intro c hc
          simpa using mem_take_run _ hc
        refine ⟨rest, ?_⟩
        rw [← hrun, ← hrest, List.take_append_drop]
      · contradiction
    · contradiction
  · rintro ⟨rest, rfl⟩
    have hrun : run (· = '=') (List.replicate level '=' ++ '[' :: rest) = level := by
      induction level with
      | zero => simp [run_cons]
      | succ level ih => simpa [List.replicate_succ, run_cons] using ih
    simp [longLevel?, hrun]

@[simp] theorem length_closer (level : Nat) : (closer level).length = level + 2 := by
  simp [closer]

theorem closeLong_bounds {level : Nat} {cs : List Char} {n : Nat}
    (h : closeLong level cs = some n) : level + 2 ≤ n ∧ n ≤ cs.length := by
  induction cs generalizing n with
  | nil => contradiction
  | cons c cs ih =>
    simp only [closeLong] at h
    split at h
    · rename_i hp
      cases h
      rw [List.isPrefixOf_iff_prefix] at hp
      have := hp.length_le
      rw [length_closer] at this
      exact ⟨Nat.le_refl _, this⟩
    · obtain ⟨k, hk, rfl⟩ := Option.map_eq_some_iff.1 h
      have := ih hk
      simp only [List.length_cons]
      omega

/-- A long bracket is closed by its own last characters, whatever follows. -/
theorem closeLong_take_append {level : Nat} {cs : List Char} {n : Nat}
    (h : closeLong level cs = some n) (w : List Char) :
    closeLong level (cs.take n ++ w) = some n := by
  induction cs generalizing n with
  | nil => contradiction
  | cons c cs ih =>
    have hbound := closeLong_bounds h
    have hsame : (closer level).isPrefixOf ((c :: cs).take n ++ w) =
        (closer level).isPrefixOf (c :: cs) := by
      have hlength : (closer level).length ≤ ((c :: cs).take n).length := by
        rw [length_closer, List.length_take]
        omega
      have hdrop := isPrefixOf_append (v := (c :: cs).drop n) hlength
      rw [List.take_append_drop] at hdrop
      exact (isPrefixOf_append hlength).trans hdrop.symm
    simp only [closeLong] at h
    split at h
    · rename_i hp
      cases h
      rw [hp] at hsame
      rw [List.take_succ_cons, List.cons_append] at hsame ⊢
      rw [closeLong, if_pos hsame]
    · rename_i hp
      obtain ⟨k, hk, rfl⟩ := Option.map_eq_some_iff.1 h
      rw [Bool.eq_false_iff.2 hp] at hsame
      rw [List.take_succ_cons, List.cons_append] at hsame ⊢
      rw [closeLong, hsame, ih hk]
      rfl

theorem longLevel?_append {b : List Char} {level : Nat} (h : longLevel? b = some level)
    (w : List Char) : longLevel? (b ++ w) = some level := by
  rw [longLevel?_eq_some_iff] at h ⊢
  obtain ⟨rest, rfl⟩ := h
  exact ⟨rest ++ w, by simp⟩

/-- An opening bracket that a text lacks is not made by what follows, if that starts with neither
part of one. -/
theorem longLevel?_append_eq_none {b w : List Char} (h : longLevel? b = none)
    (hw : ∀ c, w.head? = some c → c ≠ '[' ∧ c ≠ '=') : longLevel? (b ++ w) = none := by
  cases hl : longLevel? (b ++ w) with
  | none => rfl
  | some level =>
    obtain ⟨rest, hrest⟩ := longLevel?_eq_some_iff.1 hl
    rw [← List.cons_append, List.append_eq_append_iff] at hrest
    rcases hrest with ⟨x, hx, hw'⟩ | ⟨x, rfl, hx⟩
    · cases x with
      | nil =>
        rw [List.nil_append] at hw'
        exact absurd rfl (hw '[' (by rw [hw']; rfl)).1
      | cons c x =>
        have hc : c = '[' ∨ c = '=' := by
          have : c ∈ '[' :: List.replicate level '=' := by
            rw [hx]
            simp
          simp only [List.mem_cons, List.mem_replicate] at this
          exact this.imp_right And.right
        have hne := hw c (by rw [hw']; rfl)
        rcases hc with hc | hc
        · exact absurd hc hne.1
        · exact absurd hc hne.2
    · cases x with
      | nil =>
        rw [List.nil_append] at hx
        exact absurd rfl (hw '[' (by rw [← hx]; rfl)).1
      | cons c x =>
        obtain ⟨rfl, rfl⟩ := List.cons.inj hx
        have hopen : longLevel? ('[' :: List.replicate level '=' ++ '[' :: x) = some level :=
          longLevel?_eq_some_iff.2 ⟨x, rfl⟩
        rw [hopen] at h
        contradiction

theorem longBracket?_eq (cs : List Char) :
    longBracket? cs = (longLevel? cs).bind fun level =>
      (closeLong level (cs.drop (level + 2))).map (level + 2 + ·) := by
  unfold longBracket?
  cases longLevel? cs <;> rfl

theorem longBracket?_bounds {cs : List Char} {n : Nat} (h : longBracket? cs = some n) :
    0 < n ∧ n ≤ cs.length := by
  rw [longBracket?_eq] at h
  obtain ⟨level, hlevel, h⟩ := Option.bind_eq_some_iff.1 h
  obtain ⟨k, hk, rfl⟩ := Option.map_eq_some_iff.1 h
  have := closeLong_bounds hk
  rw [List.length_drop] at this
  omega

theorem longBracket?_take_append {cs : List Char} {n : Nat} (h : longBracket? cs = some n)
    (w : List Char) : longBracket? (cs.take n ++ w) = some n := by
  rw [longBracket?_eq] at h
  obtain ⟨level, hlevel, h⟩ := Option.bind_eq_some_iff.1 h
  obtain ⟨k, hk, rfl⟩ := Option.map_eq_some_iff.1 h
  obtain ⟨rest, rfl⟩ := longLevel?_eq_some_iff.1 hlevel
  have hopen : ('[' :: (List.replicate level '=' ++ '[' :: rest)).take (level + 2 + k) =
      '[' :: (List.replicate level '=' ++ '[' :: rest.take k) := by
    rw [show level + 2 + k = level + (k + 1) + 1 by omega, List.take_succ_cons]
    congr 1
    rw [List.take_append, List.length_replicate,
      List.take_of_length_le (by rw [List.length_replicate]; omega),
      show level + (k + 1) - level = k + 1 by omega, List.take_succ_cons]
  have hdrop (cs : List Char) :
      ('[' :: (List.replicate level '=' ++ '[' :: cs)).drop (level + 2) = cs := by
    rw [List.drop_succ_cons, List.drop_append, List.length_replicate,
      List.drop_of_length_le (by rw [List.length_replicate]; omega),
      show level + 1 - level = 1 by omega]
    rfl
  rw [hdrop] at hk
  rw [hopen, longBracket?_eq, longLevel?_append (longLevel?_eq_some_iff.2 ⟨_, rfl⟩),
    Option.bind_some, List.cons_append, List.append_assoc, List.cons_append, hdrop,
    closeLong_take_append hk]
  rfl

/-! ## Modes of interpolated strings -/

theorem closeModes_text {inner : Bool} {up : List Mode} {c : Char} (hc : c ≠ '\\')
    (hquote : c ≠ '\x60') (hbrace : c ≠ '\x7b') (cs : List Char) :
    closeModes (.text inner :: up) (c :: cs) =
      (· + 1) <$> closeModes (.text inner :: up) cs := by
  rw [closeModes] <;> simp [hc, hquote, hbrace]

theorem closeModes_quoted {quote : Char} {up : List Mode} {c : Char} (hc : c ≠ '\\')
    (hline : c ≠ '\n') (cs : List Char) :
    closeModes (.quoted quote :: up) (c :: cs) =
      if c = quote then (· + 1) <$> closeModes up cs
      else (· + 1) <$> closeModes (.quoted quote :: up) cs := by
  rw [closeModes] <;> simp [hc, hline]

/-- Open modes are closed by their own last characters, whatever follows. -/
theorem closeModes_take_append {modes : List Mode} {cs : List Char} {n : Nat}
    (h : closeModes modes cs = some n) (w : List Char) :
    closeModes modes (cs.take n ++ w) = some n := by
  have hplain {c : Char} {cs : List Char}
      (hescape : ∀ (d : Char) (ds : List Char), c = '\\' → cs = d :: ds → False)
      (hlast : c = '\\' → cs = [] → False) : c ≠ '\\' := by
    rintro rfl
    cases cs with
    | nil => exact hlast rfl rfl
    | cons d ds => exact hescape d ds rfl rfl
  fun_induction closeModes modes cs generalizing n
  case case7 inner up c cs hescape hlast hquote hbrace ih =>
    obtain ⟨k, hk, rfl⟩ := Option.map_eq_some_iff.1 h
    rw [List.take_succ_cons, List.cons_append,
      closeModes_text (hplain hescape hlast) hquote hbrace, ih hk]
    rfl
  case case11 up c cs hescape hlast hline ih =>
    obtain ⟨k, hk, rfl⟩ := Option.map_eq_some_iff.1 h
    rw [List.take_succ_cons, List.cons_append, closeModes_quoted (hplain hescape hlast) hline,
      if_pos rfl, ih hk]
    rfl
  case case12 quote up c cs hescape hlast hline hquote ih =>
    obtain ⟨k, hk, rfl⟩ := Option.map_eq_some_iff.1 h
    rw [List.take_succ_cons, List.cons_append, closeModes_quoted (hplain hescape hlast) hline,
      if_neg hquote, ih hk]
    rfl
  all_goals first
    | contradiction
    | (cases h; simp [closeModes])
    | (obtain ⟨k, hk, rfl⟩ := Option.map_eq_some_iff.1 h
       rename_i ih
       simp only [List.take_succ_cons, List.cons_append, closeModes, ih hk]
       rfl)

theorem closeModes_le_length {modes : List Mode} {cs : List Char} {n : Nat}
    (h : closeModes modes cs = some n) : n ≤ cs.length := by
  fun_induction closeModes modes cs generalizing n
  all_goals first
    | contradiction
    | (cases h; exact Nat.zero_le _)
    | (obtain ⟨k, hk, rfl⟩ := Option.map_eq_some_iff.1 h
       rename_i ih
       have := ih hk
       simp only [List.length_cons]
       omega)

/-! ## Strings -/

theorem string?_cases {cs : List Char} {n : Nat} (h : string? cs = some n) :
    (∃ quote rest k, (quote = '"' ∨ quote = '\'') ∧ cs = quote :: rest ∧
      closeQuote quote rest = some k ∧ n = k + 1) ∨ longBracket? cs = some n := by
  unfold string? at h
  split at h
  · obtain ⟨k, hk, rfl⟩ := Option.map_eq_some_iff.1 h
    exact .inl ⟨_, _, k, .inl rfl, rfl, hk, rfl⟩
  · obtain ⟨k, hk, rfl⟩ := Option.map_eq_some_iff.1 h
    exact .inl ⟨_, _, k, .inr rfl, rfl, hk, rfl⟩
  · exact .inr h

theorem string?_bounds {cs : List Char} {n : Nat} (h : string? cs = some n) :
    0 < n ∧ n ≤ cs.length := by
  rcases string?_cases h with ⟨quote, rest, k, -, rfl, hk, rfl⟩ | h
  · have := closeQuote_le_length hk
    rw [List.length_cons]
    omega
  · exact longBracket?_bounds h

/-- The last character of a quoted text is its quote. -/
theorem closeQuote_last {quote : Char} {cs : List Char} {n : Nat}
    (h : closeQuote quote cs = some n) : (cs.take n).getLast? = some quote := by
  fun_induction closeQuote quote cs generalizing n with
  | case1 => contradiction
  | case2 => contradiction
  | case3 c cs ih =>
    obtain ⟨k, hk, rfl⟩ := Option.map_eq_some_iff.1 h
    rw [List.take_succ_cons, List.take_succ_cons, List.getLast?_cons, List.getLast?_cons, ih hk]
    rfl
  | case4 cs hlast hescape =>
    cases h
    rfl
  | case5 => contradiction
  | case6 c cs hlast hescape hquote hline ih =>
    obtain ⟨k, hk, rfl⟩ := Option.map_eq_some_iff.1 h
    rw [List.take_succ_cons, List.getLast?_cons, ih hk]
    rfl

/-- The last character of a long bracket is a bracket. -/
theorem closeLong_last {level : Nat} {cs : List Char} {n : Nat}
    (h : closeLong level cs = some n) : (cs.take n).getLast? = some ']' := by
  induction cs generalizing n with
  | nil => contradiction
  | cons c cs ih =>
    simp only [closeLong] at h
    split at h
    · rename_i hp
      cases h
      rw [List.isPrefixOf_iff_prefix, List.prefix_iff_eq_take, length_closer] at hp
      rw [← hp, closer, List.getLast?_cons, List.getLast?_append]
      rfl
    · obtain ⟨k, hk, rfl⟩ := Option.map_eq_some_iff.1 h
      rw [List.take_succ_cons, List.getLast?_cons, ih hk]
      rfl

/-- The last character of a string is a quote or a bracket. -/
theorem string?_last {cs : List Char} {n : Nat} (h : string? cs = some n) :
    (cs.take n).getLast? ≠ some '-' := by
  rcases string?_cases h with ⟨quote, rest, k, hquote, rfl, hk, rfl⟩ | hlong
  · rw [List.take_succ_cons, List.getLast?_cons, closeQuote_last hk]
    rcases hquote with rfl | rfl <;> decide
  · rw [longBracket?_eq] at hlong
    obtain ⟨level, -, hlong⟩ := Option.bind_eq_some_iff.1 hlong
    obtain ⟨k, hk, rfl⟩ := Option.map_eq_some_iff.1 hlong
    rw [List.take_add, List.getLast?_append, closeLong_last hk, Option.some_or]
    decide

theorem string?_take_append {cs : List Char} {n : Nat} (h : string? cs = some n)
    (w : List Char) : string? (cs.take n ++ w) = some n := by
  rcases string?_cases h with ⟨quote, rest, k, hquote, rfl, hk, rfl⟩ | hl
  · have hclose := closeQuote_take_append hk w
    rw [List.take_succ_cons, List.cons_append]
    rcases hquote with rfl | rfl <;> simp only [string?, hclose] <;> rfl
  · obtain ⟨level, hlevel, -⟩ := Option.bind_eq_some_iff.1 ((longBracket?_eq _).symm.trans hl)
    obtain ⟨rest, rfl⟩ := longLevel?_eq_some_iff.1 hlevel
    have hpos := longBracket?_bounds hl
    obtain ⟨k, rfl⟩ : ∃ k, n = k + 1 := ⟨n - 1, by omega⟩
    have := longBracket?_take_append hl w
    rw [List.take_succ_cons, List.cons_append] at this ⊢
    exact this

theorem interpolated?_cases {cs : List Char} {n : Nat} (h : interpolated? cs = some n) :
    ∃ rest k, cs = '\x60' :: rest ∧ closeModes [.text false] rest = some k ∧ n = k + 1 := by
  unfold interpolated? at h
  split at h
  · obtain ⟨k, hk, rfl⟩ := Option.map_eq_some_iff.1 h
    exact ⟨_, k, rfl, hk, rfl⟩
  · contradiction

theorem interpolated?_bounds {cs : List Char} {n : Nat} (h : interpolated? cs = some n) :
    0 < n ∧ n ≤ cs.length := by
  obtain ⟨rest, k, rfl, hk, rfl⟩ := interpolated?_cases h
  have := closeModes_le_length hk
  rw [List.length_cons]
  omega

theorem interpolated?_take_append {cs : List Char} {n : Nat} (h : interpolated? cs = some n)
    (w : List Char) : interpolated? (cs.take n ++ w) = some n := by
  obtain ⟨rest, k, rfl, hk, rfl⟩ := interpolated?_cases h
  rw [List.take_succ_cons, List.cons_append]
  simp only [interpolated?, closeModes_take_append hk w]
  rfl

end TypedLinks.Luau.Lexeme
