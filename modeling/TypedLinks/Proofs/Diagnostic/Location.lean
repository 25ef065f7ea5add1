import Mathlib.Data.List.Basic
import Mathlib.Data.List.Count
import TypedLinks.Diagnostic.Problem
import TypedLinks.Text.Lines

/-!
# Locations

A position in a source is the one behind some characters that the source starts with. Its line is a
line of the source, and its column counts the characters of that line before it. A location that is
made from such a position stands in the text of the source.
-/

namespace TypedLinks

theorem CodePoint.ofChar_injective : Function.Injective CodePoint.ofChar := by
  intro c d h
  exact Char.ext (UInt32.toNat.inj (Fin.mk.inj h))

/-! ## Lines of a text -/

namespace Text

variable {separator : CodePoint} {s t : Text}

theorem mem_ofChars {c : Char} {cs : List Char} : CodePoint.ofChar c ∈ ofChars cs ↔ c ∈ cs := by
  rw [ofChars, List.mem_map_of_injective CodePoint.ofChar_injective]

theorem length_splitOn (separator : CodePoint) (t : Text) :
    (t.splitOn separator).length = t.count separator + 1 := by
  induction t with
  | nil => rfl
  | cons p t ih =>
    rw [List.splitOn_cons_eq_if_modifyHead, List.count_cons]
    split
    · rw [List.length_cons, ih]
    · rw [List.length_modifyHead, ih, Nat.add_zero]

/-- Characters in front of a text, none of which is a separator, belong to its first piece. -/
theorem exists_splitOn_append (h : separator ∉ s) (t : Text) :
    ∃ piece pieces, piece <+: t ∧ (s ++ t).splitOn separator = (s ++ piece) :: pieces := by
  by_cases ht : separator ∈ t
  · obtain ⟨u, v, rfl, hu⟩ := List.eq_append_cons_of_mem ht
    refine ⟨u, v.splitOn separator, List.prefix_append u _, ?_⟩
    rw [← List.append_assoc]
    exact List.splitOn_append_cons_self_of_not_mem (List.not_mem_append h hu) v
  · exact ⟨t, [], List.prefix_rfl, List.splitOn_eq_singleton (List.not_mem_append h ht)⟩

end Text

/-! ## Positions in a source -/

namespace Luau.Position

/-- A position is in a source: it is the one behind some characters that the source starts with. -/
def In (source : List Char) (p : Position) : Prop := ∃ x, x <+: source ∧ p = start.advance x

theorem line_advance (p : Position) (x : List Char) :
    (p.advance x).line = p.line + x.count '\n' := by
  induction x generalizing p with
  | nil => rfl
  | cons c x ih =>
    rw [advance_cons, ih, next]
    split
    · rename_i hc
      rw [hc, List.count_cons_self, Nat.add_right_comm, Nat.add_assoc]
    · rename_i hc
      rw [List.count_cons_of_ne hc]

theorem column_advance_of_notMem {x : List Char} (h : '\n' ∉ x) (p : Position) :
    (p.advance x).column = p.column + x.length := by
  induction x generalizing p with
  | nil => rfl
  | cons c x ih =>
    obtain ⟨hc, hx⟩ := List.ne_and_not_mem_of_not_mem_cons h
    rw [advance_cons, ih hx, next, if_neg hc.symm, List.length_cons, Nat.add_right_comm,
      Nat.add_assoc]

/-- A text has no line feed, or it has a last one. -/
theorem lastLine_cases (x : List Char) :
    '\n' ∉ x ∨ ∃ w u, x = w ++ '\n' :: u ∧ '\n' ∉ u := by
  refine or_iff_not_imp_left.2 fun h => ?_
  obtain ⟨v, w, hx, hv⟩ := List.eq_append_cons_of_mem (List.mem_reverse.2 (not_not.1 h))
  refine ⟨w.reverse, v.reverse, ?_, by rwa [List.mem_reverse]⟩
  rw [← x.reverse_reverse, hx]
  simp

/-- The line of a position, and its column, which counts the characters of the line before it. -/
theorem line_of_advance (x y : List Char) :
    ∃ u v, u <:+ x ∧ (start.advance x).column = u.length + 1 ∧ v <+: Text.ofChars y ∧
      (Text.ofChars (x ++ y)).lines[(start.advance x).line - 1]? =
        some (Text.ofChars u ++ v) := by
  have hline {u : List Char} (hu : '\n' ∉ u) : ∃ v rest, v <+: Text.ofChars y ∧
      (Text.ofChars (u ++ y)).lines = (Text.ofChars u ++ v) :: rest := by
    rw [Text.lines, Text.ofChars_append]
    exact Text.exists_splitOn_append (mt Text.mem_ofChars.1 hu) _
  rcases lastLine_cases x with hx | ⟨w, u, rfl, hu⟩
  · obtain ⟨v, rest, hv, hlines⟩ := hline hx
    refine ⟨x, v, List.suffix_rfl, ?_, hv, ?_⟩
    · rw [column_advance_of_notMem hx, start, Nat.add_comm]
    · rw [line_advance, start, List.count_eq_zero_of_not_mem hx, hlines]
      rfl
  · obtain ⟨v, rest, hv, hlines⟩ := hline hu
    refine ⟨u, v, ⟨w ++ ['\n'], by simp⟩, ?_, hv, ?_⟩
    · rw [advance_append, advance_cons, column_advance_of_notMem hu, next, if_pos rfl, Nat.add_comm]
    · have hcount : (start.advance (w ++ '\n' :: u)).line - 1 =
          ((Text.ofChars w).splitOn (CodePoint.ofChar '\n')).length := by
        rw [line_advance, Text.length_splitOn, Text.ofChars,
          List.count_map_of_injective w CodePoint.ofChar CodePoint.ofChar_injective,
          List.count_append, List.count_cons_self, List.count_eq_zero_of_not_mem hu]
        exact Nat.add_sub_cancel_left 1 _
      rw [List.append_assoc, Text.ofChars_append, List.cons_append, Text.ofChars_cons, Text.lines,
        List.splitOn_append_cons_self, hcount, List.getElem?_append_right (Nat.le_refl _),
        Nat.sub_self, ← Text.lines, hlines]
      rfl

theorem lineStart_of_notMem {x : List Char} (h : '\n' ∉ x) : lineStart x = 0 := by
  rw [lineStart, List.idxOf_of_notMem (mt List.mem_reverse.1 h), List.length_reverse, Nat.sub_self]

theorem lineStart_append_cons {u : List Char} (h : '\n' ∉ u) (w : List Char) :
    lineStart (w ++ '\n' :: u) = w.length + 1 := by
  have hindex : (w ++ '\n' :: u).reverse.idxOf '\n' = u.length := by
    rw [List.reverse_append, List.reverse_cons, List.append_assoc,
      List.idxOf_append_of_notMem (mt List.mem_reverse.1 h), List.length_reverse]
    simp
  rw [lineStart, hindex, List.length_append, List.length_cons]
  omega

/-- Counting the characters of a source one by one ends at the position that its line feeds give. -/
theorem advance_start (x : List Char) : start.advance x = endOf x := by
  have hoffset : (start.advance x).offset = x.length := by
    rw [offset_advance, start, Nat.zero_add]
  have hline : (start.advance x).line = x.count '\n' + 1 := by
    rw [line_advance, start, Nat.add_comm]
  have hcolumn : (start.advance x).column = x.length - lineStart x + 1 := by
    rcases lastLine_cases x with hx | ⟨w, u, rfl, hu⟩
    · rw [column_advance_of_notMem hx, lineStart_of_notMem hx, start, Nat.sub_zero, Nat.add_comm]
    · have hnext (p : Position) : (p.next '\n').column = 1 := by
        rw [next, if_pos rfl]
      rw [advance_append, advance_cons, column_advance_of_notMem hu, hnext,
        lineStart_append_cons hu, List.length_append, List.length_cons]
      omega
  rw [endOf, ← hline, ← hcolumn, ← hoffset]

variable {source : List Char} {p : Position}

theorem in_start (source : List Char) : In source start := ⟨[], List.nil_prefix, rfl⟩

theorem in_endOf (source : List Char) : In source (endOf source) :=
  ⟨source, List.prefix_rfl, (advance_start source).symm⟩

theorem In.advance {x y : List Char} (h : x ++ y <+: source) (hp : p = start.advance x) :
    In source (p.advance y) :=
  ⟨x ++ y, h, by rw [hp, advance_append]⟩

end Luau.Position

/-! ## Locations in a text -/

/-- A location is in a text: it names a line of the text and a column of that line, or the one
behind its end. -/
structure Location.IsIn (l : Location) (text : Text) : Prop where
  line_pos : 1 ≤ l.line
  line_le : l.line ≤ 1 + text.count (CodePoint.ofChar '\n')
  column_pos : 1 ≤ l.column
  column_le : ∃ line, text.lines[(l.line - 1).toNat]? = some line ∧ l.column ≤ line.length + 1

theorem Luau.Position.In.isIn {source : List Char} {p : Position} (h : p.In source) {l : Location}
    (hline : l.line = p.line) (hcolumn : l.column = p.column) : l.IsIn (Text.ofChars source) := by
  obtain ⟨x, ⟨y, rfl⟩, rfl⟩ := h
  obtain ⟨u, v, -, hu, -, hget⟩ := line_of_advance x y
  have hlines := Position.line_advance .start x
  obtain ⟨hlt, -⟩ := List.getElem?_eq_some_iff.1 hget
  rw [Text.lines, Text.length_splitOn] at hlt
  have hstart : Position.start.line = 1 := rfl
  refine ⟨by omega, by omega, by omega, Text.ofChars u ++ v, ?_, ?_⟩
  · rw [hline, show ((Position.start.advance x).line - 1 : Int).toNat =
      (Position.start.advance x).line - 1 by omega]
    exact hget
  · rw [hcolumn, hu, List.length_append, Text.length_ofChars]
    omega

/-- A problem is located in a file with the given source: it shows that source and names a place in
it. -/
structure Problem.LocatedIn (p : Problem) (file : Text) (source : List Char) : Prop where
  shown : p.source = some (Text.ofChars source)
  placed : ∃ l, p.location = some l ∧ l.file = file ∧ l.IsIn (Text.ofChars source)

end TypedLinks
