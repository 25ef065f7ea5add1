import TypedLinks.Proofs.Syntax.Spans

/-!
# What tokens end with

A carriage return can stand inside a string, and nowhere else in a token. So no token ends with one,
and no node does: a carriage return in front of a line feed belongs to what is between the tokens.
-/

namespace TypedLinks.Luau

open scoped Computability

/-! ## Words -/

namespace Lexeme

/-- Whether no word of a language ends with a carriage return. -/
def NoneEndsInReturn (l : Language Char) : Prop := ∀ w ∈ l, w.getLast? ≠ some '\r'

theorem getLast?_append_ne {a b : List Char} {c : Char} (ha : a.getLast? ≠ some c)
    (hb : b.getLast? ≠ some c) : (a ++ b).getLast? ≠ some c := by
  rw [List.getLast?_append]
  cases h : b.getLast? with
  | none => rwa [Option.none_or]
  | some d =>
    rw [Option.some_or, ← h]
    exact hb

namespace NoneEndsInReturn

variable {l m : Language Char} {p : Char → Bool} {w : List Char}

theorem character (h : p '\r' = false) : NoneEndsInReturn (character p) := by
  rintro w ⟨c, hc, rfl⟩ hlast
  obtain rfl : c = '\r' := Option.some.inj hlast
  rw [h] at hc
  contradiction

theorem exactly (h : w.getLast? ≠ some '\r') : NoneEndsInReturn (exactly w) := by
  rintro v rfl
  exact h

theorem mul (hl : NoneEndsInReturn l) (hm : NoneEndsInReturn m) : NoneEndsInReturn (l * m) := by
  intro w hw
  obtain ⟨a, ha, b, hb, rfl⟩ := Language.mem_mul.1 hw
  exact getLast?_append_ne (hl a ha) (hm b hb)

/-- Whatever stands in front of the last character. -/
theorem mul_exactly {c : Char} (h : c ≠ '\r') : NoneEndsInReturn (l * Lexeme.exactly [c]) := by
  intro w hw hlast
  obtain ⟨a, -, b, rfl, rfl⟩ := Language.mem_mul.1 hw
  rw [List.getLast?_concat] at hlast
  exact h (Option.some.inj hlast)

theorem add (hl : NoneEndsInReturn l) (hm : NoneEndsInReturn m) : NoneEndsInReturn (l + m) :=
  fun w hw => ((Language.mem_add _ _ _).1 hw).elim (hl w) (hm w)

theorem kstar (h : NoneEndsInReturn l) : NoneEndsInReturn l∗ := by
  intro w hw
  obtain ⟨ws, rfl, hws⟩ := Language.mem_kstar.1 hw
  clear hw
  induction ws with
  | nil => simp
  | cons v ws ih =>
    rw [List.forall_mem_cons] at hws
    exact getLast?_append_ne (h v hws.1) (ih hws.2)

theorem optionally (h : NoneEndsInReturn l) : NoneEndsInReturn (optionally l) :=
  add (by rintro w rfl; simp) h

theorem repeated (h : NoneEndsInReturn l) : NoneEndsInReturn (repeated l) := h.mul h.kstar

theorem names : NoneEndsInReturn names := (character (by decide)).mul (character (by decide)).kstar

theorem digits : NoneEndsInReturn digits :=
  (character (by decide)).mul (character (by decide)).kstar

theorem basedNumbers {letters : List Char} {digit : Char → Bool}
    (hletters : letters.contains '\r' = false) (hdigit : digit '\r' = false) :
    NoneEndsInReturn (basedNumbers letters digit) :=
  (exactly (by decide)).mul ((character hletters).mul (character hdigit).repeated)

theorem numbers : NoneEndsInReturn numbers := by
  have hmantissas : NoneEndsInReturn mantissas :=
    (digits.mul ((exactly (by decide)).mul (character (by decide)).kstar).optionally).add
      ((exactly (by decide)).mul digits)
  have hexponents : NoneEndsInReturn exponents :=
    (character (by decide)).mul ((character (by decide)).optionally.mul digits)
  exact ((basedNumbers (by decide) (by decide)).add (basedNumbers (by decide) (by decide))).add
    (hmantissas.mul hexponents.optionally)

theorem quotedBy {quote : Char} (h : quote ≠ '\r') : NoneEndsInReturn (quotedBy quote) :=
  (exactly (by simpa using h)).mul (mul_exactly h)

theorem quotedStrings : NoneEndsInReturn quotedStrings :=
  (quotedBy (show '"' ≠ '\r' by decide)).add (quotedBy (show '\'' ≠ '\r' by decide))

theorem longBrackets : NoneEndsInReturn longBrackets := by
  rintro w ⟨level, body, rfl⟩
  have hlast : (body ++ closer level).getLast? = some ']' := by
    rw [List.getLast?_append, closer, ← List.cons_append, List.getLast?_concat]
    rfl
  rw [List.getLast?_cons, List.getLast?_append, List.getLast?_cons, hlast, Option.getD_some,
    Option.some_or, Option.getD_some]
  decide

theorem interpolatedStrings : NoneEndsInReturn interpolatedStrings :=
  (exactly (by decide)).mul (mul_exactly (by decide))

end NoneEndsInReturn

end Lexeme

open Lexeme

/-- No token ends with a carriage return. -/
theorem Terminal.noneEndsInReturn (t : Terminal) : NoneEndsInReturn t.language := by
  have hspelled {w : List Char} (h : t.spelling? = some w) : w.getLast? ≠ some '\r' := by
    cases t <;> cases h <;> decide
  cases t with
  | name => exact NoneEndsInReturn.names
  | number => exact NoneEndsInReturn.numbers
  | quoted => exact NoneEndsInReturn.quotedStrings.add NoneEndsInReturn.longBrackets
  | interpolated => exact NoneEndsInReturn.interpolatedStrings
  | compound =>
    have hoperators : ∀ w ∈ compoundOperators, w.getLast? ≠ some '\r' := by decide
    exact hoperators
  | _ => exact fun w hw => hspelled hw

/-! ## Nodes -/

section Nodes

variable {file : Text} {source : List Char} {chunk : Chunk} {n : SyntaxNode}

theorem text_last_of_mem_tokensRead (h : parse file source = .ok chunk) {t : Token}
    (ht : t ∈ tokensRead source) : t.text ≠ [] ∧ t.text.getLast? ≠ some '\r' := by
  obtain ⟨ts, own, hblock, -, -⟩ := parse_eq_ok_iff.1 h
  obtain ⟨a, g, -, hspaced, -⟩ := spaced_of_parseTree hblock.parseTree
  rw [tokens_of_parseTree hblock.parseTree] at hspaced
  obtain ⟨x, y, -, hne, -⟩ := hspaced.mem ht
  exact ⟨hne, t.terminal.noneEndsInReturn _ (hspaced.mem_language ht)⟩

namespace SyntaxNode.IsPlaced

theorem take_stop (h : n.IsPlaced source) : source.take n.span.stop.offset =
    source.take n.span.start.offset ++ n.span.text source := by
  rw [Span.text, ← List.take_add, Nat.add_sub_cancel' h.nonempty.le]

theorem length_text (h : n.IsPlaced source) :
    (n.span.text source).length = n.span.stop.offset - n.span.start.offset := by
  have hbounded := h.bounded
  rw [Span.text, List.length_take, List.length_drop]
  omega

theorem text_ne_nil (h : n.IsPlaced source) : n.span.text source ≠ [] := by
  have hnonempty := h.nonempty
  rw [← List.length_pos_iff, h.length_text]
  omega

end SyntaxNode.IsPlaced

/-- No node of a source ends with a carriage return. -/
theorem Chunk.HasNode.text_last (hn : chunk.HasNode n) (h : parse file source = .ok chunk) :
    (n.span.text source).getLast? ≠ some '\r' := by
  obtain ⟨t, ht, -, x, hx⟩ := (hn.isPlaced h).last
  obtain ⟨hne, hlast⟩ := text_last_of_mem_tokensRead h ht
  rw [← hx, List.getLast?_append_of_ne_nil _ hne]
  exact hlast

end Nodes

end TypedLinks.Luau
