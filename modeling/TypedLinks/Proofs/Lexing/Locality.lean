import TypedLinks.Proofs.Lexing.Closing

/-!
# How far a lexeme looks

A lexeme is settled by its own characters and the ones just after it, apart from quotes and long
brackets, which are read up to their end. So a lexeme that ends inside a text is the same in front
of any continuation, and none crosses the end of a text if the continuation starts with a character
that no lexeme goes on with.
-/

namespace TypedLinks.Luau

open Lexeme

/-! ## Terminals -/

namespace Terminal

/-- Whether the lexemes of a terminal are read without looking for a closing quote or bracket. -/
def isFlat : Terminal → Bool
  | quoted | interpolated => false
  | _ => true

/-- The spellings of a terminal that has some. -/
def spellings : Terminal → List (List Char)
  | compound => compoundOperators
  | t => t.spelling?.toList

theorem lexeme?_eq_spelled? {t : Terminal} (hname : t ≠ name) (hnumber : t ≠ number)
    (hflat : t.isFlat = true) (cs : List Char) : t.lexeme? cs = spelled? t.spellings cs := by
  cases t <;> first | rfl | contradiction

theorem nil_not_mem_spellings (t : Terminal) : [] ∉ t.spellings := by
  cases t <;> decide

/-- A lexeme is never empty, and lies in the source. -/
theorem lexeme?_bounds {t : Terminal} {cs : List Char} {n : Nat} (h : t.lexeme? cs = some n) :
    0 < n ∧ n ≤ cs.length := by
  by_cases hname : t = name
  · subst hname
    exact name?_bounds h
  by_cases hnumber : t = number
  · subst hnumber
    exact number?_bounds h
  by_cases hflat : t.isFlat
  · rw [lexeme?_eq_spelled? hname hnumber hflat] at h
    obtain ⟨s, hs, htake, rfl⟩ := prefix_of_spelled? h
    constructor
    · rw [List.length_pos_iff]
      rintro rfl
      exact nil_not_mem_spellings t hs
    · rw [← htake, List.length_take]
      exact Nat.min_le_right _ _
  · cases t <;> first | contradiction | skip
    · exact interpolated?_bounds h
    · exact string?_bounds h

theorem local_lexeme? {t : Terminal} (ht : t.isFlat = true) : Local t.lexeme? := by
  by_cases hname : t = name
  · subst hname
    exact local_name?
  by_cases hnumber : t = number
  · subst hnumber
    exact local_number?
  intro b v hb h
  rw [lexeme?_eq_spelled? hname hnumber ht] at h
  rw [lexeme?_eq_spelled? hname hnumber ht, lexeme?_eq_spelled? hname hnumber ht]
  exact local_spelled? _ b v hb h

/-- A closed string of any kind is read up to its own end, whatever follows. -/
theorem lexeme?_take_append {t : Terminal} (ht : t.isFlat = false) {cs : List Char} {n : Nat}
    (h : t.lexeme? cs = some n) (w : List Char) : t.lexeme? (cs.take n ++ w) = some n := by
  cases t <;> first | contradiction | skip
  · exact interpolated?_take_append h w
  · exact string?_take_append h w

end Terminal

/-! ## Continuations -/

/-- A character with which no lexeme goes on, apart from the arrow. -/
def isStop (c : Char) : Bool := c = ',' || c = '>' || c = '\n' || c = '\r'

/-- No lexeme and no comment crosses from a text to what follows it: that starts with a stop, and
the two do not make up an arrow. -/
def Stops (b w : List Char) : Prop :=
  (∀ c, w.head? = some c → isStop c = true) ∧ ¬(b.getLast? = some '-' ∧ w.head? = some '>')

theorem stop_of_mem_spelling :
    ∀ t ∈ Terminal.all, ∀ s ∈ t.spellings, s.tail.any isStop = true → s = "->".toList := by
  decide

theorem isStop_of_isNumberPart {c : Char} (h : isNumberPart c = true) : isStop c = false := by
  cases hc : isStop c with
  | false => rfl
  | true =>
    simp only [isStop, Bool.or_eq_true, decide_eq_true_eq] at hc
    rcases hc with ((rfl | rfl) | rfl) | rfl <;> exact absurd h (by decide)

theorem isNumberPart_of_isNamePart {c : Char} (h : isNamePart c = true) :
    isNumberPart c = true := by
  simp [isNumberPart, h]

/-- A character of a text's continuation that a lexeme from the text reaches. -/
theorem mem_take_append {b w : List Char} {c : Char} {n : Nat} (hb : b ≠ [])
    (hw : w.head? = some c) (hn : b.length < n) : c ∈ ((b ++ w).take n).tail := by
  obtain ⟨d, b, rfl⟩ := List.exists_cons_of_ne_nil hb
  obtain ⟨w, rfl⟩ := List.head?_eq_some_iff.1 hw
  obtain ⟨n, rfl⟩ : ∃ k, n = b.length + k + 2 := ⟨n - b.length - 2, by simp at hn; omega⟩
  rw [List.cons_append, List.take_succ_cons, List.tail_cons, List.take_append]
  rw [show b.length + n + 1 - b.length = n + 1 by omega]
  simp

/-- No lexeme crosses from a text to a continuation that stops it. -/
theorem Terminal.le_of_lexeme?_append {t : Terminal} (ht : t.isFlat = true) {b w : List Char}
    {n : Nat} (hb : b ≠ []) (hstop : Stops b w) (h : t.lexeme? (b ++ w) = some n) :
    n ≤ b.length := by
  refine Nat.le_of_not_lt fun hn => ?_
  have hw : w ≠ [] := by
    rintro rfl
    have := (lexeme?_bounds h).2
    rw [List.append_nil] at this
    omega
  obtain ⟨c, w, rfl⟩ := List.exists_cons_of_ne_nil hw
  have hc := hstop.1 c rfl
  have hmem := mem_take_append hb (by rfl : (c :: w).head? = some c) hn
  by_cases hname : t = name
  · subst hname
    rw [isStop_of_isNumberPart (isNumberPart_of_isNamePart (holds_name? _ _ h _ hmem))] at hc
    contradiction
  by_cases hnumber : t = number
  · subst hnumber
    rw [isStop_of_isNumberPart (isNumberPart_of_number? h (List.mem_of_mem_tail hmem))] at hc
    contradiction
  rw [lexeme?_eq_spelled? hname hnumber ht] at h
  obtain ⟨s, hs, htake, rfl⟩ := prefix_of_spelled? h
  rw [htake] at hmem
  have harrow := stop_of_mem_spelling t (mem_all t) s hs (List.any_eq_true.2 ⟨c, hmem, hc⟩)
  subst harrow
  obtain ⟨d, b, rfl⟩ := List.exists_cons_of_ne_nil hb
  have hlength : b = [] := by
    rw [List.length_cons] at hn
    exact List.length_eq_zero_iff.1 (by
      have : "->".toList.length = 2 := rfl
      omega)
  subst hlength
  have heq : [d, c] = ['-', '>'] := htake
  cases heq
  exact hstop.2 ⟨rfl, rfl⟩

end TypedLinks.Luau
