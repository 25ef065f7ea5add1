import TypedLinks.Luau.Token

/-!
# Lexemes without quotes

A name, a number or a symbol is settled by its own characters and the ones just after it: a reader of
such lexemes gives the same answer when the text behind the lexeme is cut off.
-/

namespace TypedLinks.Luau.Lexeme

/-! ## Runs -/

section Run

variable (p : Char → Bool)

@[simp] theorem run_nil : run p [] = 0 := rfl

theorem run_cons (c : Char) (cs : List Char) :
    run p (c :: cs) = if p c then run p cs + 1 else 0 := by
  unfold run
  rw [List.takeWhile_cons]
  split <;> rfl

theorem run_le_length (cs : List Char) : run p cs ≤ cs.length :=
  (List.takeWhile_sublist p).length_le

theorem run_append_of_le {b v : List Char} (h : run p (b ++ v) ≤ b.length) :
    run p (b ++ v) = run p b := by
  induction b with
  | nil => simpa using h
  | cons c b ih =>
    rw [List.cons_append, run_cons, run_cons]
    rw [List.cons_append, run_cons] at h
    by_cases hc : p c
    · rw [if_pos hc, List.length_cons] at h
      rw [if_pos hc, if_pos hc, ih (by omega)]
    · rw [if_neg hc, if_neg hc]

theorem mem_take_run {c : Char} {cs : List Char} (h : c ∈ cs.take (run p cs)) : p c = true := by
  induction cs with
  | nil => simp at h
  | cons d cs ih =>
    rw [run_cons] at h
    by_cases hd : p d
    · rw [if_pos hd, List.take_succ_cons, List.mem_cons] at h
      rcases h with rfl | h
      · exact hd
      · exact ih h
    · simp [hd] at h

end Run

/-! ## Readers that look one character ahead -/

/-- A reader of lexemes that looks at one character beyond the lexeme at most, so far as it can see:
cutting the text off behind the lexeme changes nothing. -/
def Local (f : List Char → Option Nat) : Prop :=
  ∀ b v, b ≠ [] → (∀ n, f (b ++ v) = some n → n ≤ b.length) → f (b ++ v) = f b

/-- The characters of the lexemes of a reader, the first apart, are of a class. -/
def Holds (f : List Char → Option Nat) (p : Char → Bool) : Prop :=
  ∀ cs n, f cs = some n → ∀ c ∈ (cs.take n).tail, p c = true

theorem local_name? : Local name? := by
  intro b v hb h
  obtain ⟨c, b, rfl⟩ := List.exists_cons_of_ne_nil hb
  simp only [List.cons_append, name?] at h ⊢
  split
  · rename_i hc
    have hle := h _ (if_pos hc)
    rw [run_append_of_le isNamePart (by simp at hle; omega)]
  · rfl

theorem holds_name? : Holds name? isNamePart := by
  intro cs n h c hc
  cases cs with
  | nil => simp [name?] at h
  | cons d cs =>
    simp only [name?] at h
    split at h
    · cases h
      rw [Nat.add_comm, List.take_succ_cons, List.tail_cons] at hc
      exact mem_take_run _ hc
    · contradiction

theorem isPrefixOf_append {s b v : List Char} (h : s.length ≤ b.length) :
    s.isPrefixOf (b ++ v) = s.isPrefixOf b := by
  induction s generalizing b with
  | nil => simp
  | cons c s ih =>
    cases b with
    | nil => simp at h
    | cons d b => simp [List.isPrefixOf, ih (by simpa using h)]

theorem isPrefixOf_append_of_isPrefixOf {s b : List Char} (v : List Char)
    (h : s.isPrefixOf b = true) : s.isPrefixOf (b ++ v) = true := by
  rw [List.isPrefixOf_iff_prefix] at h ⊢
  exact h.trans (List.prefix_append b v)

theorem local_spelled? (spellings : List (List Char)) : Local (spelled? spellings) := by
  intro b v _ h
  induction spellings with
  | nil => rfl
  | cons s ss ih =>
    unfold spelled? at h ih ⊢
    by_cases hs : s.isPrefixOf (b ++ v)
    · have hle : s.length ≤ b.length := h _ (by simp [hs])
      have hb : s.isPrefixOf b := by rwa [isPrefixOf_append hle] at hs
      simp [hs, hb]
    · have hb : ¬s.isPrefixOf b := fun hb => hs (isPrefixOf_append_of_isPrefixOf v hb)
      simp only [List.find?_cons, hs, hb] at h ⊢
      exact ih h

theorem prefix_of_spelled? {spellings : List (List Char)} {cs : List Char} {n : Nat}
    (h : spelled? spellings cs = some n) : ∃ s ∈ spellings, cs.take n = s ∧ s.length = n := by
  unfold spelled? at h
  obtain ⟨s, hs, rfl⟩ := Option.map_eq_some_iff.1 h
  have hp := List.find?_some hs
  rw [List.isPrefixOf_iff_prefix] at hp
  exact ⟨s, List.mem_of_find?_eq_some hs, (List.prefix_iff_eq_take.1 hp).symm, rfl⟩

/-! ## Numbers -/

/-- A character inside a number. -/
def isNumberPart (c : Char) : Bool := isNamePart c || c = '.' || c = '+' || c = '-'

theorem local_based (digits : Char → Bool) (b v : List Char)
    (h : ∀ n, based digits (b ++ v) = some n → n ≤ b.length + 2) :
    based digits (b ++ v) = based digits b := by
  unfold based at h ⊢
  by_cases h0 : run digits (b ++ v) = 0
  · have hb : run digits b = 0 := by
      rw [← run_append_of_le digits (b := b) (v := v) (by omega), h0]
    simp [h0, hb]
  · have hle := h (2 + run digits (b ++ v)) (by simp [h0])
    rw [run_append_of_le digits (by omega)]

/-- The length of a fraction: a point and the digits after it. -/
def fraction : List Char → Nat
  | '.' :: cs => 1 + run isDigitOrUnderscore cs
  | _ => 0

theorem mantissa?_point (cs : List Char) :
    mantissa? ('.' :: cs) =
      if (cs.head?.any isDigit) then some (2 + run isDigitOrUnderscore cs.tail) else none := by
  cases cs with
  | nil => rfl
  | cons d cs => rfl

theorem mantissa?_cons {c : Char} (hc : c ≠ '.') (cs : List Char) :
    mantissa? (c :: cs) =
      if isDigit c then
        some (1 + run isDigitOrUnderscore cs + fraction (cs.drop (run isDigitOrUnderscore cs)))
      else none := by
  rw [mantissa?]
  · by_cases hd : isDigit c
    · simp only [hd, if_true, Nat.add_sub_cancel_left]
      split <;> rename_i h
      · simp [h, fraction, Nat.add_assoc]
      · unfold fraction
        split <;> simp_all
    · simp [hd]
  · rintro d cs' h -
    exact hc h

theorem fraction_append_of_le {b v : List Char} (h : fraction (b ++ v) ≤ b.length) :
    fraction (b ++ v) = fraction b := by
  cases b with
  | nil => simp [fraction] at h ⊢; exact h
  | cons c b =>
    by_cases hc : c = '.'
    · subst hc
      simp only [List.cons_append, fraction, List.length_cons] at h ⊢
      rw [run_append_of_le _ (by omega)]
    · simp [fraction, hc]

theorem local_mantissa? : Local mantissa? := by
  intro b v hb h
  obtain ⟨c, b, rfl⟩ := List.exists_cons_of_ne_nil hb
  rw [List.cons_append] at h ⊢
  by_cases hc : c = '.'
  · subst hc
    rw [mantissa?_point] at h
    rw [mantissa?_point, mantissa?_point]
    cases b with
    | nil =>
      cases v with
      | nil => rfl
      | cons d v =>
        by_cases hd : isDigit d
        · have := h (2 + run isDigitOrUnderscore v) (by simp [hd])
          simp only [List.length_singleton] at this
          omega
        · simp [hd]
    | cons d b =>
      by_cases hd : isDigit d
      · have := h (2 + run isDigitOrUnderscore (b ++ v)) (by simp [hd])
        simp only [List.length_cons] at this
        simp [hd, run_append_of_le isDigitOrUnderscore (b := b) (v := v) (by omega)]
      · simp [hd]
  · rw [mantissa?_cons hc] at h
    rw [mantissa?_cons hc, mantissa?_cons hc]
    by_cases hd : isDigit c
    · have hle := h _ (if_pos hd)
      rw [List.length_cons] at hle
      have hrun := run_append_of_le isDigitOrUnderscore (b := b) (v := v) (by omega)
      rw [hrun, List.drop_append_of_le_length (run_le_length _ _)] at hle
      rw [if_pos hd, if_pos hd, hrun, List.drop_append_of_le_length (run_le_length _ _),
        fraction_append_of_le (by rw [List.length_drop]; omega)]
    · rw [if_neg hd, if_neg hd]

/-- The part of an exponent after its letter: a sign and digits. -/
def signedDigits : List Char → Nat
  | [] => 0
  | c :: cs =>
    if c = '+' || c = '-' then
      if (cs.head?.any isDigit) then 2 + run isDigitOrUnderscore cs.tail else 0
    else if isDigit c then 1 + run isDigitOrUnderscore cs else 0

theorem exponent_cons (e : Char) (cs : List Char) :
    exponent (e :: cs) =
      if e = 'e' || e = 'E' then
        if signedDigits cs = 0 then 0 else 1 + signedDigits cs
      else 0 := by
  unfold exponent
  by_cases he : e = 'e' || e = 'E'
  · simp only [he, if_true]
    cases cs with
    | nil => rfl
    | cons c cs =>
      unfold signedDigits
      by_cases hc : c = '+' || c = '-'
      · simp only [hc, if_true, List.drop_succ_cons, List.drop_zero]
        cases cs with
        | nil => rfl
        | cons d cs =>
          by_cases hd : isDigit d
          · simp [hd]; omega
          · simp [hd]
      · simp only [hc, if_false, List.drop_zero, Bool.false_eq_true]
        by_cases hd : isDigit c
        · simp [hd]; omega
        · simp [hd]
  · simp [he]

theorem signedDigits_append_of_le {b v : List Char} (h : signedDigits (b ++ v) ≤ b.length) :
    signedDigits (b ++ v) = signedDigits b := by
  cases b with
  | nil => exact Nat.le_zero.1 h
  | cons c b =>
    simp only [List.cons_append, signedDigits, List.length_cons] at h ⊢
    by_cases hc : c = '+' || c = '-'
    · rw [if_pos hc] at h
      rw [if_pos hc, if_pos hc]
      cases b with
      | nil =>
        cases v with
        | nil => rfl
        | cons d v =>
          by_cases hd : isDigit d
          · simp only [List.nil_append, List.head?_cons, Option.any_some, hd, if_true,
              List.length_nil] at h
            omega
          · simp [hd]
      | cons d b =>
        by_cases hd : isDigit d
        · simp only [List.cons_append, List.head?_cons, Option.any_some, hd, if_true,
            List.tail_cons, List.length_cons] at h ⊢
          rw [run_append_of_le _ (by omega)]
        · simp [hd]
    · rw [if_neg hc] at h
      rw [if_neg hc, if_neg hc]
      by_cases hd : isDigit c
      · rw [if_pos hd] at h
        rw [if_pos hd, if_pos hd, run_append_of_le _ (by omega)]
      · rw [if_neg hd, if_neg hd]

theorem exponent_append_of_le {b v : List Char} (h : exponent (b ++ v) ≤ b.length) :
    exponent (b ++ v) = exponent b := by
  cases b with
  | nil => exact Nat.le_zero.1 h
  | cons e b =>
    rw [List.cons_append, exponent_cons] at h
    rw [List.cons_append, exponent_cons, exponent_cons]
    by_cases he : e = 'e' || e = 'E'
    · rw [if_pos he, List.length_cons] at h
      have hs : signedDigits (b ++ v) ≤ b.length := by
        split at h <;> omega
      rw [if_pos he, if_pos he, signedDigits_append_of_le hs]
    · rw [if_neg he, if_neg he]

theorem mantissa?_le_length {cs : List Char} {n : Nat} (h : mantissa? cs = some n) :
    n ≤ cs.length := by
  cases cs with
  | nil => simp [mantissa?] at h
  | cons c cs =>
    by_cases hc : c = '.'
    · subst hc
      rw [mantissa?_point] at h
      cases cs with
      | nil => simp at h
      | cons d cs =>
        have := run_le_length isDigitOrUnderscore cs
        split at h
        · cases h
          simp only [List.length_cons, List.tail_cons]
          omega
        · contradiction
    · rw [mantissa?_cons hc] at h
      split at h
      · cases h
        have hrun := run_le_length isDigitOrUnderscore cs
        have hfraction : fraction (cs.drop (run isDigitOrUnderscore cs)) ≤
            (cs.drop (run isDigitOrUnderscore cs)).length := by
          unfold fraction
          split
          · rename_i rest heq
            rw [heq, List.length_cons]
            have := run_le_length isDigitOrUnderscore rest
            omega
          · omega
        rw [List.length_drop] at hfraction
        rw [List.length_cons]
        omega
      · contradiction

theorem decimal?_eq (cs : List Char) :
    decimal? cs = (mantissa? cs).map fun n => n + exponent (cs.drop n) := by
  unfold decimal?
  cases mantissa? cs <;> rfl

theorem local_decimal? : Local decimal? := by
  intro b v hb h
  rw [decimal?_eq] at h
  rw [decimal?_eq, decimal?_eq]
  cases hm : mantissa? (b ++ v) with
  | none =>
    rw [← local_mantissa? b v hb (by simp [hm]), hm]
    rfl
  | some n =>
    rw [hm] at h
    have hle : n + exponent ((b ++ v).drop n) ≤ b.length := h _ rfl
    have hmb : mantissa? b = some n := by
      rw [← local_mantissa? b v hb (by rintro _ hn; rw [hm] at hn; cases hn; omega), hm]
    have hn := mantissa?_le_length hmb
    rw [List.drop_append_of_le_length hn] at hle
    have he := exponent_append_of_le (b := b.drop n) (v := v) (by rw [List.length_drop]; omega)
    simp only [hmb, Option.map_some, List.drop_append_of_le_length hn, he]

/-- The digits of a number with a base, and what precedes them. -/
def prefixed? (base : Char) (cs : List Char) : Option Nat :=
  if base = 'x' || base = 'X' then based (fun c => isHexDigit c || c = '_') cs
  else if base = 'b' || base = 'B' then based (fun c => c = '0' || c = '1' || c = '_') cs
  else none

theorem number?_zero (base : Char) (cs : List Char) :
    number? ('0' :: base :: cs) = (prefixed? base cs).or (decimal? ('0' :: base :: cs)) := rfl

theorem number?_single (c : Char) : number? [c] = decimal? [c] := by
  unfold number?
  split
  · rename_i heq
    cases (List.cons.inj heq).2
  · rfl

theorem number?_of_ne {c : Char} (hc : c ≠ '0') (cs : List Char) :
    number? (c :: cs) = decimal? (c :: cs) := by
  unfold number?
  split
  · rename_i heq
    exact absurd (List.cons.inj heq).1 hc
  · rfl

theorem prefixed?_append {base : Char} {b v : List Char}
    (h : ∀ n, prefixed? base (b ++ v) = some n → n ≤ b.length + 2) :
    prefixed? base (b ++ v) = prefixed? base b := by
  unfold prefixed? at h ⊢
  by_cases hx : base = 'x' || base = 'X'
  · simp only [hx, if_true] at h ⊢
    exact local_based _ _ _ h
  · by_cases hb : base = 'b' || base = 'B'
    · simp only [hx, hb, if_true] at h ⊢
      exact local_based _ _ _ h
    · simp [hx, hb]

theorem three_le_of_prefixed? {base : Char} {cs : List Char} {n : Nat}
    (h : prefixed? base cs = some n) : 3 ≤ n := by
  have hbased (digits : Char → Bool) (hd : based digits cs = some n) : 3 ≤ n := by
    unfold based at hd
    simp only at hd
    split at hd
    · contradiction
    · cases hd
      omega
  unfold prefixed? at h
  split at h
  · exact hbased _ h
  · split at h
    · exact hbased _ h
    · contradiction

theorem local_number? : Local number? := by
  intro b v hb h
  obtain ⟨c, b, rfl⟩ := List.exists_cons_of_ne_nil hb
  by_cases hc : c = '0'
  · subst hc
    cases b with
    | nil =>
      cases v with
      | nil => rfl
      | cons base v =>
        rw [List.cons_append, List.nil_append, number?_zero] at h
        rw [List.cons_append, List.nil_append, number?_zero, number?_single]
        cases hp : prefixed? base v with
        | some n =>
          have h3 := three_le_of_prefixed? hp
          have := h n (by rw [hp]; rfl)
          simp only [List.length_singleton] at this
          omega
        | none =>
          rw [hp, Option.none_or] at h
          exact local_decimal? ['0'] _ (by simp) h
    | cons base b =>
      rw [List.cons_append, List.cons_append, number?_zero] at h
      rw [List.cons_append, List.cons_append, number?_zero, number?_zero]
      have hp : prefixed? base (b ++ v) = prefixed? base b := by
        apply prefixed?_append
        intro n hn
        have := h n (by rw [hn]; rfl)
        simpa using this
      rw [hp] at h ⊢
      cases hb' : prefixed? base b with
      | some n => rfl
      | none =>
        rw [hb', Option.none_or] at h
        exact local_decimal? ('0' :: base :: b) v (by simp) h
  · rw [List.cons_append, number?_of_ne hc] at h
    rw [List.cons_append, number?_of_ne hc, number?_of_ne hc]
    exact local_decimal? (c :: b) v (by simp) h

theorem isNumberPart_of_isDigitOrUnderscore {c : Char} (h : isDigitOrUnderscore c = true) :
    isNumberPart c = true := by
  simp only [isDigitOrUnderscore, Bool.or_eq_true] at h
  rcases h with h | h
  · simp [isNumberPart, isNamePart, h]
  · simp [isNumberPart, isNamePart, isNameStart, h]

theorem isNumberPart_of_isDigit {c : Char} (h : isDigit c = true) : isNumberPart c = true := by
  simp [isNumberPart, isNamePart, h]

theorem mem_take_cons_run {p : Char → Bool} {d c : Char} {cs : List Char}
    (hd : isNumberPart d = true) (hp : ∀ x, p x = true → isNumberPart x = true)
    (h : c ∈ (d :: cs).take (1 + run p cs)) : isNumberPart c = true := by
  rw [Nat.add_comm, List.take_succ_cons, List.mem_cons] at h
  rcases h with rfl | h
  · exact hd
  · exact hp _ (mem_take_run p h)

theorem isNumberPart_of_fraction {c : Char} {cs : List Char} (h : c ∈ cs.take (fraction cs)) :
    isNumberPart c = true := by
  unfold fraction at h
  split at h
  · exact mem_take_cons_run (by decide) (fun _ => isNumberPart_of_isDigitOrUnderscore) h
  · simp at h

theorem isNumberPart_of_mantissa? {c : Char} {cs : List Char} {n : Nat}
    (h : mantissa? cs = some n) (hc : c ∈ cs.take n) : isNumberPart c = true := by
  cases cs with
  | nil => simp [mantissa?] at h
  | cons d cs =>
    by_cases hd : d = '.'
    · subst hd
      rw [mantissa?_point] at h
      cases cs with
      | nil => simp at h
      | cons d cs =>
        by_cases hd : isDigit d
        · simp only [List.head?_cons, Option.any_some, hd, if_true, List.tail_cons,
            Option.some.injEq] at h
          subst h
          rw [show 2 + run isDigitOrUnderscore cs = 1 + run isDigitOrUnderscore cs + 1 by omega,
            List.take_succ_cons, List.mem_cons] at hc
          rcases hc with rfl | hc
          · decide
          · exact mem_take_cons_run (isNumberPart_of_isDigit hd)
              (fun _ => isNumberPart_of_isDigitOrUnderscore) hc
        · simp [hd] at h
    · rw [mantissa?_cons hd] at h
      split at h
      · rename_i hdigit
        cases h
        rw [List.take_add, List.mem_append] at hc
        rcases hc with hc | hc
        · exact mem_take_cons_run (isNumberPart_of_isDigit hdigit)
            (fun _ => isNumberPart_of_isDigitOrUnderscore) hc
        · rw [Nat.add_comm 1, List.drop_succ_cons] at hc
          exact isNumberPart_of_fraction hc
      · contradiction

theorem isNumberPart_of_signedDigits {c : Char} {cs : List Char}
    (h : c ∈ cs.take (signedDigits cs)) : isNumberPart c = true := by
  cases cs with
  | nil => simp at h
  | cons d cs =>
    simp only [signedDigits] at h
    by_cases hd : d = '+' || d = '-'
    · have hpart : isNumberPart d = true := by
        simp only [Bool.or_eq_true, decide_eq_true_eq] at hd
        rcases hd with rfl | rfl <;> decide
      rw [if_pos hd] at h
      cases cs with
      | nil => simp at h
      | cons e cs =>
        by_cases he : isDigit e
        · simp only [List.head?_cons, Option.any_some, he, if_true, List.tail_cons] at h
          rw [show 2 + run isDigitOrUnderscore cs = 1 + run isDigitOrUnderscore cs + 1 by omega,
            List.take_succ_cons, List.mem_cons] at h
          rcases h with rfl | h
          · exact hpart
          · exact mem_take_cons_run (isNumberPart_of_isDigit he)
              (fun _ => isNumberPart_of_isDigitOrUnderscore) h
        · simp [he] at h
    · rw [if_neg hd] at h
      by_cases hdigit : isDigit d
      · rw [if_pos hdigit] at h
        exact mem_take_cons_run (isNumberPart_of_isDigit hdigit)
          (fun _ => isNumberPart_of_isDigitOrUnderscore) h
      · simp [hdigit] at h

theorem isNumberPart_of_exponent {c : Char} {cs : List Char} (h : c ∈ cs.take (exponent cs)) :
    isNumberPart c = true := by
  cases cs with
  | nil => simp at h
  | cons e cs =>
    rw [exponent_cons] at h
    by_cases he : e = 'e' || e = 'E'
    · rw [if_pos he] at h
      split at h
      · simp at h
      · rw [Nat.add_comm, List.take_succ_cons, List.mem_cons] at h
        rcases h with rfl | h
        · simp only [Bool.or_eq_true, decide_eq_true_eq] at he
          rcases he with rfl | rfl <;> decide
        · exact isNumberPart_of_signedDigits h
    · simp [he] at h

theorem isNumberPart_of_decimal? {c : Char} {cs : List Char} {n : Nat}
    (h : decimal? cs = some n) (hc : c ∈ cs.take n) : isNumberPart c = true := by
  rw [decimal?_eq] at h
  obtain ⟨k, hk, rfl⟩ := Option.map_eq_some_iff.1 h
  rw [List.take_add, List.mem_append] at hc
  rcases hc with hc | hc
  · exact isNumberPart_of_mantissa? hk hc
  · exact isNumberPart_of_exponent hc

theorem isNumberPart_of_based {digits : Char → Bool} {c base : Char} {cs : List Char} {n : Nat}
    (hdigits : ∀ x, digits x = true → isNumberPart x = true) (hbase : isNumberPart base = true)
    (h : based digits cs = some n) (hc : c ∈ ('0' :: base :: cs).take n) :
    isNumberPart c = true := by
  unfold based at h
  simp only at h
  split at h
  · contradiction
  · cases h
    rw [show 2 + run digits cs = 1 + run digits cs + 1 by omega, List.take_succ_cons,
      List.mem_cons] at hc
    rcases hc with rfl | hc
    · decide
    · exact mem_take_cons_run hbase hdigits hc

theorem isNumberPart_of_prefixed? {c base : Char} {cs : List Char} {n : Nat}
    (h : prefixed? base cs = some n) (hc : c ∈ ('0' :: base :: cs).take n) :
    isNumberPart c = true := by
  unfold prefixed? at h
  by_cases hx : base = 'x' || base = 'X'
  · rw [if_pos hx] at h
    simp only [Bool.or_eq_true, decide_eq_true_eq] at hx
    refine isNumberPart_of_based ?_ (by rcases hx with rfl | rfl <;> decide) h hc
    intro x hhex
    simp only [isHexDigit, isNumberPart, isNamePart, isNameStart, Bool.or_eq_true,
      Bool.and_eq_true, decide_eq_true_eq] at hhex ⊢
    have hF : x ≤ 'F' → x ≤ 'Z' := fun h => Char.le_trans h (by decide)
    have hf : x ≤ 'f' → x ≤ 'z' := fun h => Char.le_trans h (by decide)
    grind
  · rw [if_neg hx] at h
    by_cases hb : base = 'b' || base = 'B'
    · rw [if_pos hb] at h
      simp only [Bool.or_eq_true, decide_eq_true_eq] at hb
      refine isNumberPart_of_based ?_ (by rcases hb with rfl | rfl <;> decide) h hc
      intro x hbit
      simp only [Bool.or_eq_true, decide_eq_true_eq] at hbit
      rcases hbit with (rfl | rfl) | rfl <;> decide
    · rw [if_neg hb] at h
      contradiction

theorem isNumberPart_of_number? {c : Char} {cs : List Char} {n : Nat}
    (h : number? cs = some n) (hc : c ∈ cs.take n) : isNumberPart c = true := by
  cases cs with
  | nil => simp at hc
  | cons d cs =>
    by_cases hd : d = '0'
    · subst hd
      cases cs with
      | nil =>
        rw [number?_single] at h
        exact isNumberPart_of_decimal? h hc
      | cons base cs =>
        rw [number?_zero] at h
        cases hp : prefixed? base cs with
        | some k =>
          rw [hp] at h
          cases h
          exact isNumberPart_of_prefixed? hp hc
        | none =>
          rw [hp, Option.none_or] at h
          exact isNumberPart_of_decimal? h hc
    · rw [number?_of_ne hd] at h
      exact isNumberPart_of_decimal? h hc

/-! ## Bounds -/

theorem signedDigits_le_length (cs : List Char) : signedDigits cs ≤ cs.length := by
  cases cs with
  | nil => exact Nat.le_refl _
  | cons c cs =>
    simp only [signedDigits, List.length_cons]
    split
    · cases cs with
      | nil => simp
      | cons d cs =>
        have := run_le_length isDigitOrUnderscore cs
        by_cases hd : isDigit d
        · simp only [List.head?_cons, Option.any_some, hd, if_true, List.tail_cons,
            List.length_cons]
          omega
        · simp [hd]
    · have := run_le_length isDigitOrUnderscore cs
      split <;> omega

theorem exponent_le_length (cs : List Char) : exponent cs ≤ cs.length := by
  cases cs with
  | nil => exact Nat.le_refl _
  | cons e cs =>
    have := signedDigits_le_length cs
    rw [exponent_cons, List.length_cons]
    repeat' split
    all_goals omega

theorem mantissa?_pos {cs : List Char} {n : Nat} (h : mantissa? cs = some n) : 0 < n := by
  cases cs with
  | nil => simp [mantissa?] at h
  | cons c cs =>
    by_cases hc : c = '.'
    · subst hc
      rw [mantissa?_point] at h
      split at h
      · cases h
        omega
      · contradiction
    · rw [mantissa?_cons hc] at h
      split at h
      · cases h
        omega
      · contradiction

theorem decimal?_bounds {cs : List Char} {n : Nat} (h : decimal? cs = some n) :
    0 < n ∧ n ≤ cs.length := by
  rw [decimal?_eq] at h
  obtain ⟨k, hk, rfl⟩ := Option.map_eq_some_iff.1 h
  have hpos := mantissa?_pos hk
  have hle := mantissa?_le_length hk
  have he := exponent_le_length (cs.drop k)
  rw [List.length_drop] at he
  omega

theorem prefixed?_le_length {base : Char} {cs : List Char} {n : Nat}
    (h : prefixed? base cs = some n) : n ≤ cs.length + 2 := by
  have hbased (digits : Char → Bool) (hd : based digits cs = some n) : n ≤ cs.length + 2 := by
    have := run_le_length digits cs
    unfold based at hd
    simp only at hd
    split at hd
    · contradiction
    · cases hd
      omega
  unfold prefixed? at h
  split at h
  · exact hbased _ h
  · split at h
    · exact hbased _ h
    · contradiction

theorem number?_bounds {cs : List Char} {n : Nat} (h : number? cs = some n) :
    0 < n ∧ n ≤ cs.length := by
  cases cs with
  | nil => exact decimal?_bounds h
  | cons c cs =>
    by_cases hc : c = '0'
    · subst hc
      cases cs with
      | nil =>
        rw [number?_single] at h
        exact decimal?_bounds h
      | cons base cs =>
        rw [number?_zero] at h
        cases hp : prefixed? base cs with
        | some k =>
          rw [hp] at h
          cases h
          have hle := prefixed?_le_length hp
          have hpos := three_le_of_prefixed? hp
          simp only [List.length_cons]
          omega
        | none =>
          rw [hp, Option.none_or] at h
          exact decimal?_bounds h
    · rw [number?_of_ne hc] at h
      exact decimal?_bounds h

theorem name?_bounds {cs : List Char} {n : Nat} (h : name? cs = some n) :
    0 < n ∧ n ≤ cs.length := by
  cases cs with
  | nil => contradiction
  | cons c cs =>
    have := run_le_length isNamePart cs
    simp only [name?] at h
    split at h
    · cases h
      rw [List.length_cons]
      omega
    · contradiction

end TypedLinks.Luau.Lexeme
