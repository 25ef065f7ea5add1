import Mathlib.Data.List.TakeWhile
import TypedLinks.Json.Reader

/-!
# Where a document is read

A reader goes through a document from left to right. So its cursor stands in the document at every
step, and an integer is refused for its length only at an offset where that many digits are written.
-/

namespace TypedLinks.Json

variable {document : List Char}

/-! ## Cursors -/

/-- A cursor stands in a document: what follows it is what follows its offset there. -/
def Cursor.In (document : List Char) (c : Cursor) : Prop := c.rest = document.drop c.offset

namespace Cursor.In

variable {c : Cursor}

theorem skip (h : c.In document) (n : Nat) : (c.skip n).In document := by
  change c.rest.drop n = document.drop (c.offset + n)
  rw [h, List.drop_drop]

theorem skipBlank (h : c.In document) : c.skipBlank.In document := h.skip _

theorem tail {x : Char} {cs : List Char} (h : c.In document) (hrest : c.rest = x :: cs) :
    Cursor.In document ⟨c.offset + 1, cs⟩ := by
  have hskip := h.skip 1
  rwa [Cursor.skip, hrest] at hskip

end Cursor.In

/-! ## Results -/

/-- At an offset of a document an integer is written that has more digits than are converted. -/
def LongIntegerAt (document : List Char) (offset : Nat) : Prop :=
  ∃ sign digits rest, document.drop offset = sign ++ digits ++ rest ∧ (sign = [] ∨ sign = ['-']) ∧
    (∀ d ∈ digits, isDigit d = true) ∧ maxIntegerDigits < digits.length

/-- What a reader may give in a document: something of a kind, or a fault that is about a long
integer only where there is one. -/
def Gives {α : Type} (document : List Char) (post : α → Prop) : Except Fault α → Prop
  | .ok a => post a
  | .error fault => fault.kind = .integerTooLong → LongIntegerAt document fault.offset

namespace Gives

variable {α β : Type} {P : α → Prop} {Q : β → Prop} {x : Except Fault α}

theorem bind {f : α → Except Fault β} (hx : Gives document P x)
    (hf : ∀ a, P a → Gives document Q (f a)) : Gives document Q (x >>= f) := by
  rcases x with fault | a
  · exact hx
  · exact hf a hx

theorem map {f : α → β} (hx : Gives document P x) (hf : ∀ a, P a → Q (f a)) :
    Gives document Q (f <$> x) := by
  rcases x with fault | a
  · exact hx
  · exact hf a hx

end Gives

theorem gives_error {α : Type} {P : α → Prop} {f : Fault} (h : f.kind ≠ .integerTooLong) :
    Gives document P (.error f) := fun hkind => absurd hkind h

theorem gives_fault {α : Type} {P : α → Prop} {c : Cursor} {kind : FaultKind}
    (h : kind ≠ .integerTooLong) : Gives document P (c.fault kind) := gives_error h

/-- A reader that stands in the document when it is done. -/
abbrev Reads {α : Type} (document : List Char) (x : Except Fault (α × Cursor)) : Prop :=
  Gives document (·.2.In document) x

/-! ## Strings -/

theorem gives_unicodeEscape (offset : Nat) (cs : List Char) :
    Gives document (fun _ => True) (unicodeEscape offset cs) := by
  unfold unicodeEscape
  extract_lets unit
  have hunit (offset : Nat) (cs : List Char) : Gives document (fun _ => True) (unit offset cs) := by
    unfold unit
    split
    · exact gives_error (by simp)
    · split
      · trivial
      · exact gives_error (by simp)
  refine (hunit offset cs).bind fun high _ => ?_
  split
  · refine (hunit (offset + 6) _).bind fun low _ => ?_
    split <;> trivial
  · trivial

theorem gives_escape (start offset : Nat) (cs : List Char) :
    Gives document (fun _ => True) (escape start offset cs) := by
  unfold escape
  split
  · exact gives_error (by simp)
  · exact (gives_unicodeEscape _ _).map fun _ _ => trivial
  · split
    · trivial
    · exact gives_error (by simp)

theorem reads_stringRest {start pending offset : Nat} {cs : List Char}
    (h : Cursor.In document ⟨offset, cs⟩) : Reads document (stringRest start pending offset cs) := by
  induction cs generalizing pending offset with
  | nil =>
    rw [stringRest]
    exact gives_error (by simp)
  | cons c cs ih =>
    cases pending with
    | succ pending =>
      rw [stringRest]
      exact ih (h.tail rfl)
    | zero =>
      rw [stringRest]
      split
      · exact h.tail rfl
      split
      · refine (gives_escape _ _ _).bind fun r _ => ?_
        exact (ih (h.tail rfl)).bind fun r hr => hr
      split
      · exact gives_error (by simp)
      · exact (ih (h.tail rfl)).bind fun r hr => hr

/-! ## Numbers and words -/

theorem integerLength_le (cs : List Char) : integerLength cs ≤ digitRun cs := by
  unfold integerLength
  split
  · simp [digitRun, isDigit]
  · exact Nat.le_refl _

/-- Digits are written where an integer has its digits. -/
theorem digits_of_integerLength (cs : List Char) :
    ∃ digits rest, cs = digits ++ rest ∧ (∀ d ∈ digits, isDigit d = true) ∧
      digits.length = integerLength cs := by
  have hle := integerLength_le cs
  refine ⟨(cs.takeWhile isDigit).take (integerLength cs),
    (cs.takeWhile isDigit).drop (integerLength cs) ++ cs.dropWhile isDigit, ?_, ?_, ?_⟩
  · rw [← List.append_assoc, List.take_append_drop, List.takeWhile_append_dropWhile]
  · exact fun d hd => List.mem_takeWhile_imp (List.mem_of_mem_take hd)
  · rw [List.length_take]
    exact Nat.min_eq_left hle

theorem reads_number {c : Cursor} (h : c.In document) : Reads document (number c) := by
  have hsign : ∃ sign : List Char, (sign = [] ∨ sign = ['-']) ∧
      c.rest = sign ++ c.rest.drop sign.length ∧
      (if c.rest.head? = some '-' then 1 else 0) = sign.length := by
    split
    · rename_i hhead
      obtain ⟨cs, hcs⟩ := List.head?_eq_some_iff.1 hhead
      exact ⟨['-'], .inr rfl, by rw [hcs]; rfl, rfl⟩
    · exact ⟨[], .inl rfl, rfl, rfl⟩
  obtain ⟨sign, hsign, hrest, hlength⟩ := hsign
  unfold number
  rw [hlength]
  dsimp only
  split
  · exact gives_fault (by simp)
  split
  · split
    · rename_i hlong
      intro _
      obtain ⟨digits, rest, hdigits, hall, hcount⟩ :=
        digits_of_integerLength (c.rest.drop sign.length)
      refine ⟨sign, digits, rest, ?_, hsign, hall, hcount.symm ▸ hlong⟩
      rw [← h, List.append_assoc, ← hdigits, ← hrest]
    · exact h.skip _
  · exact h.skip _

theorem reads_atom {c : Cursor} (h : c.In document) : Reads document (atom c) := by
  unfold atom
  split
  · exact h.skip _
  · exact reads_number h

/-! ## Values -/

/-- Values, items and members are read in the document. -/
theorem reads_value_items_members (fuel : Nat) {c : Cursor} (hc : c.In document) :
    Reads document (value fuel c) ∧ Reads document (items fuel c) ∧
      Reads document (members fuel c) := by
  induction fuel generalizing c with
  | zero =>
    rw [value, items, members]
    exact ⟨gives_fault (by simp), gives_fault (by simp), gives_fault (by simp)⟩
  | succ fuel ih =>
    refine ⟨?_, ?_, ?_⟩
    · rw [value]
      split
      · exact (reads_stringRest (hc.tail ‹_›)).bind fun _ hafter => hafter
      · dsimp only
        split
        · exact (hc.skip 1).skipBlank.skip 1
        · exact (ih (hc.skip 1).skipBlank).2.1.bind fun _ hafter => hafter
      · dsimp only
        split
        · exact (hc.skip 1).skipBlank.skip 1
        · exact (ih (hc.skip 1).skipBlank).2.2.bind fun _ hafter => hafter
      · exact reads_atom hc
    · rw [items]
      refine (ih hc).1.bind fun ⟨_, after⟩ hafter => ?_
      have hnext := Cursor.In.skipBlank hafter
      dsimp only
      split
      · exact hnext.skip 1
      · exact (ih (hnext.skip 1).skipBlank).2.1.bind fun _ hafter => hafter
      · exact gives_fault (by simp)
    · rw [members]
      split
      · refine (reads_stringRest (hc.tail ‹_›)).bind fun ⟨_, after⟩ hafter => ?_
        have hcolon := Cursor.In.skipBlank hafter
        dsimp only
        split
        · refine (ih (hcolon.skip 1).skipBlank).1.bind fun ⟨_, after⟩ hafter => ?_
          have hnext := Cursor.In.skipBlank hafter
          dsimp only
          split
          · exact hnext.skip 1
          · exact (ih (hnext.skip 1).skipBlank).2.2.bind fun _ hafter => hafter
          · exact gives_fault (by simp)
        · exact gives_fault (by simp)
      · exact gives_fault (by simp)

/-- If a document is refused for a long integer, there is one where the fault says. -/
theorem longIntegerAt_of_read {f : Fault} (h : read document = .error f)
    (hkind : f.kind = .integerTooLong) : LongIntegerAt document f.offset := by
  have hread : Gives document (fun _ => True) (read document) := by
    unfold read
    split
    · exact gives_error (by simp)
    · have hstart : (Cursor.mk 0 document).In document := rfl
      refine (reads_value_items_members _ hstart.skipBlank).1.bind fun ⟨_, after⟩ hafter => ?_
      dsimp only
      split
      · trivial
      · exact gives_fault (by simp)
  rw [h] at hread
  exact hread hkind

end TypedLinks.Json
