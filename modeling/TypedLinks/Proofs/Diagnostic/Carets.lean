import TypedLinks.Diagnostic.Render
import TypedLinks.Proofs.Syntax.Endings
import TypedLinks.Proofs.Syntax.Positions

/-!
# Carets under a node

A problem with the place of a node that lies in one line shows this line, and carets under exactly
the text of the node. The gutters of the two lines are equally wide, and the column of the node counts
the characters of the line in front of it. What is cut off at the end of the line, a row of carriage
returns, is no part of a node; it can be part of the chunk as a whole.
-/

namespace TypedLinks

open Luau

/-! ## Lines with a piece of a source -/

namespace Luau

variable {source : List Char} {p : Position} {s : Span}

theorem Position.In.eq_advance (h : p.In source) :
    p.offset ≤ source.length ∧ p = .advance .start (source.take p.offset) := by
  obtain ⟨x, ⟨y, rfl⟩, rfl⟩ := h
  rw [Position.offset_advance, Position.start, Nat.zero_add, List.take_left, List.length_append]
  exact ⟨Nat.le_add_right _ _, rfl⟩

/-- A piece of a source without line feeds lies in a line of the source, behind as many characters as
its column says. -/
theorem line_of_piece {x t y : List Char} (ht : '\n' ∉ t) :
    ∃ u v, (Position.start.advance x).column = u.length + 1 ∧ v <+: Text.ofChars y ∧
      (Text.ofChars (x ++ t ++ y)).lines[(Position.start.advance x).line - 1]? =
        some (Text.ofChars u ++ Text.ofChars t ++ v) := by
  obtain ⟨u, -, ⟨w, hu⟩, hcolumn, -, -⟩ := Position.line_of_advance x (t ++ y)
  obtain ⟨u', v, hu', hcolumn', hv, hget⟩ := Position.line_of_advance (x ++ t) y
  rw [Position.advance_append, Position.column_advance_of_notMem ht, hcolumn] at hcolumn'
  -- Both are what the text in front of the line's end has behind its last line feed.
  have hsuffix : u ++ t <:+ x ++ t := ⟨w, by rw [← List.append_assoc, hu]⟩
  have hlength : u'.length = (u ++ t).length := by
    rw [List.length_append]
    omega
  have heq : u' = u ++ t :=
    (List.suffix_of_suffix_length_le hu' hsuffix hlength.le).eq_of_length hlength
  rw [Position.advance_append, Position.line_advance, List.count_eq_zero_of_not_mem ht,
    Nat.add_zero, heq, Text.ofChars_append u] at hget
  exact ⟨u, v, hcolumn, hv, hget⟩

end Luau

/-! ## Carets under a piece of a line -/

namespace Text

/-- What is cut off at the end of a line are carriage returns behind any other character. -/
theorem dropTrailingReturns_append {q : CodePoint} (hq : q.val ≠ 13) (s u : Text) :
    (s ++ q :: u).dropTrailingReturns = s ++ q :: u.dropTrailingReturns := by
  have hdrop (v : Text) : (v ++ q :: s.reverse).dropWhile (·.val = 13) =
      v.dropWhile (·.val = 13) ++ q :: s.reverse := by
    induction v with
    | nil => rw [List.nil_append, List.dropWhile_cons_of_neg (by simpa using hq)]; rfl
    | cons r v ih =>
      rw [List.cons_append, List.dropWhile_cons, List.dropWhile_cons, ih]
      split <;> rfl
  rw [dropTrailingReturns, dropTrailingReturns, List.reverse_append, List.reverse_cons,
    List.append_assoc, List.singleton_append, hdrop, List.reverse_append, List.reverse_cons,
    List.reverse_reverse, List.append_assoc, List.singleton_append]

theorem dropTrailingReturns_append_ofChars {t : List Char} (ht : t.getLast? ≠ some '\r')
    (hne : t ≠ []) (s u : Text) :
    (s ++ ofChars t ++ u).dropTrailingReturns = s ++ ofChars t ++ u.dropTrailingReturns := by
  obtain ⟨t, c, rfl⟩ := (List.eq_nil_or_concat' t).resolve_left hne
  have hc : (CodePoint.ofChar c).val ≠ 13 := fun hc => ht (by
    rw [List.getLast?_concat, CodePoint.ofChar_injective (Fin.ext hc : _ = CodePoint.ofChar '\r')])
  have happend := dropTrailingReturns_append hc (s ++ ofChars t) u
  simpa [ofChars] using happend

end Text

namespace Diagnostic

/-- A line of a source with its number, and a line with carets that stand exactly under some
characters of it: in front of the carets are the gutter and spaces, behind them is the label. -/
structure Underlines (source : Text) (line : Nat) (marked : Text) (label : Option Text)
    (snippet underline : Text) : Prop where
  snippet_eq : snippet = Text.ofNat line ++ (" | " : Text) ++ sourceLine source line
  underline_eq : ∃ gutter indent count, 0 < count ∧
    underline = spaces gutter ++ ("| " : Text) ++ spaces indent ++
      List.replicate count (CodePoint.ofChar '^') ++ (nonempty? label).elim ([] : Text) (" " ++ ·) ∧
    (snippet.drop (gutter + 2 + indent)).take count = marked

/-- A text in which one line underlines some characters of the line above. -/
def ShowsUnderlined (shown source : Text) (line : Nat) (marked : Text) (label : Option Text) :
    Prop :=
  ∃ above below snippet underline,
    shown = Text.join "\n" (above ++ snippet :: underline :: below) ∧
      Underlines source line marked label snippet underline

variable {source : List Char} {file : Text} {s : Span} {p : Problem}

/-- The line of the source and the line below it are two lines of what is shown. -/
theorem render_eq_join (hlocation : p.location = some (.ofSpan file s))
    (hsource : p.source = some (Text.ofChars source)) :
    let line := sourceLine (Text.ofChars source) s.start.line
    let column := (max (s.start.column : Int) 1).toNat
    ∃ above below, p.render false = Text.join "\n" (above ++
      (Text.ofNat s.start.line ++ (" | " : Text) ++ line) ::
      (spaces ((Text.ofNat s.start.line).length + 1) ++ ("| " : Text) ++ (spaces (column - 1) ++
        List.replicate (caretCount (.ofSpan file s) column line) (CodePoint.ofChar '^') ++
          (nonempty? p.label).elim ([] : Text) (" " ++ ·))) :: below) := by
  intro line column
  have hrender : p.render false = paintLines false (p.diagnostic.header ::
      p.diagnostic.snippet (.ofSpan file s) (Text.ofChars source)) := by
    unfold Problem.render Diagnostic.render Diagnostic.lines Problem.sources
    rw [show p.diagnostic.location = some (.ofSpan file s) from hlocation, hlocation, hsource]
    dsimp only
    rw [List.lookup_cons_self]
  obtain ⟨arrow, bar, hsnippet⟩ : ∃ arrow bar : StyledLine,
      p.diagnostic.snippet (.ofSpan file s) (Text.ofChars source) = arrow :: bar ::
        [.styled .frame (Text.ofNat s.start.line ++ (" | " : Text)), .plain line] ::
        [.styled .frame (spaces ((Text.ofNat s.start.line).length + 1) ++ ("| " : Text)),
          .styled .alarm (spaces (column - 1) ++ List.replicate
            (caretCount (.ofSpan file s) column line) (CodePoint.ofChar '^') ++
              (nonempty? p.label).elim ([] : Text) (" " ++ ·))] ::
        p.diagnostic.remarks (Text.ofNat s.start.line).length := ⟨_, _, rfl⟩
  let paint (line : StyledLine) : Text := line.flatMap (Piece.paint false)
  refine ⟨[p.diagnostic.header, arrow, bar].map paint,
    (p.diagnostic.remarks (Text.ofNat s.start.line).length).map paint, hrender.trans ?_⟩
  rw [hsnippet, paintLines]
  simp [paint, Piece.paint, Piece.styled, Piece.plain]

/-- The extent of a span in one line is as many characters as its columns are apart. -/
theorem caretCount_of_lt (hline : s.start.line = s.stop.line) (h : s.start.column < s.stop.column)
    (line : Text) :
    caretCount (.ofSpan file s) s.start.column line = s.stop.column - s.start.column := by
  unfold caretCount
  rw [if_pos ⟨congrArg Nat.cast hline.symm, Int.ofNat_lt.2 h⟩]
  rfl

theorem caretCount_of_le (h : s.stop.column ≤ s.start.column) (line : Text) :
    caretCount (.ofSpan file s) s.start.column line = wordLength line (s.start.column - 1) := by
  unfold caretCount
  rw [if_neg fun hextent => Nat.not_lt.2 h (Int.ofNat_lt.1 hextent.2)]

/-- The line of a piece of a source that does not end with a carriage return, and the number of
carets under it. -/
theorem piece_of_sourceLine (file : Text) (hin : s.In source) (hle : s.start.offset ≤ s.stop.offset)
    (hline : s.start.line = s.stop.line) (hlast : (s.text source).getLast? ≠ some '\r')
    (hempty : s.text source = [] → source = []) :
    ∃ u rest count, s.start.column = u.length + 1 ∧ 0 < count ∧
      sourceLine (Text.ofChars source) s.start.line =
        Text.ofChars u ++ (Text.ofChars (s.text source) ++ rest) ∧
      caretCount (.ofSpan file s) s.start.column (sourceLine (Text.ofChars source) s.start.line) =
        count ∧
      (Text.ofChars (s.text source) ++ rest).take count = Text.ofChars (s.text source) := by
  obtain ⟨⟨-, hstart⟩, hbound, hstop⟩ := And.intro hin.1.eq_advance hin.2.eq_advance
  have htake : source.take s.stop.offset = source.take s.start.offset ++ s.text source := by
    rw [Span.text, ← List.take_add, Nat.add_sub_cancel' hle]
  rw [htake, Position.advance_append, ← hstart] at hstop
  have hfeed : '\n' ∉ s.text source := by
    have hcount := Position.line_advance s.start (s.text source)
    rw [← hstop, hline] at hcount
    exact List.count_eq_zero.1 (by omega)
  have hcolumn : s.stop.column = s.start.column + (s.text source).length := by
    rw [congrArg Position.column hstop, Position.column_advance_of_notMem hfeed]
  obtain ⟨u, v, hu, hv, hget⟩ := line_of_piece (x := source.take s.start.offset)
    (y := source.drop s.stop.offset) hfeed
  rw [← hstart] at hu hget
  rw [← htake, List.take_append_drop] at hget
  have hpos : 1 ≤ s.start.line := by
    rw [hstart, Position.line_advance]
    exact Nat.le_add_right _ _
  have hshown : sourceLine (Text.ofChars source) s.start.line =
      (Text.ofChars u ++ Text.ofChars (s.text source) ++ v).dropTrailingReturns := by
    rw [sourceLine, if_pos (by omega),
      show ((s.start.line : Int) - 1).toNat = s.start.line - 1 by omega, hget, Option.getD_some]
  by_cases ht : s.text source = []
  · -- Only an empty source has an empty piece, and its one caret stands under nothing.
    rw [ht, List.length_nil] at hcolumn
    rw [caretCount_of_le hcolumn.le, hshown, ht]
    obtain rfl := hempty ht
    obtain rfl : u = [] := by
      rw [hstart, List.take_nil] at hu
      exact List.length_eq_zero_iff.1 (Nat.succ.inj hu).symm
    obtain rfl : v = [] := by
      rw [List.drop_nil] at hv
      exact List.prefix_nil.1 hv
    refine ⟨[], [], 1, hu, Nat.one_pos, rfl, ?_, rfl⟩
    change wordLength [] (s.start.column - 1) = 1
    rw [wordLength, List.drop_nil]
    rfl
  · have hlength := List.length_pos_iff.2 ht
    rw [caretCount_of_lt hline (by omega), hshown,
      Text.dropTrailingReturns_append_ofChars hlast ht]
    refine ⟨u, Text.dropTrailingReturns v, (s.text source).length, hu, hlength,
      List.append_assoc _ _ _, by omega, ?_⟩
    rw [← Text.length_ofChars, List.take_left]

/-- The line of a piece of a source is shown with carets under exactly the piece. -/
theorem showsUnderlined_of_piece (hin : s.In source) (hle : s.start.offset ≤ s.stop.offset)
    (hline : s.start.line = s.stop.line) (hlast : (s.text source).getLast? ≠ some '\r')
    (hempty : s.text source = [] → source = []) (hlocation : p.location = some (.ofSpan file s))
    (hsource : p.source = some (Text.ofChars source)) :
    ShowsUnderlined (p.render false) (Text.ofChars source) s.start.line
      (Text.ofChars (s.text source)) p.label := by
  obtain ⟨above, below, hrender⟩ := render_eq_join hlocation hsource
  obtain ⟨u, rest, count, hcolumn, hcount, hshown, hcarets, htake⟩ :=
    piece_of_sourceLine file hin hle hline hlast hempty
  rw [show (max (s.start.column : Int) 1).toNat = s.start.column by omega, hcarets, hcolumn,
    Nat.add_sub_cancel] at hrender
  refine ⟨above, below, _, _, hrender, rfl, (Text.ofNat s.start.line).length + 1, u.length, count,
    hcount, ?_, ?_⟩
  · simp only [List.append_assoc]
  · have hfront : (Text.ofNat s.start.line ++ (" | " : Text) ++ Text.ofChars u).length =
        (Text.ofNat s.start.line).length + 1 + 2 + u.length := by
      rw [List.length_append, List.length_append, Text.length_ofChars]
      rfl
    rw [hshown, ← List.append_assoc, List.drop_left' hfront, htake]

end Diagnostic

open Diagnostic

variable {file : Text} {source : List Char} {chunk : Chunk} {n : SyntaxNode} {p : Problem}

theorem Luau.Chunk.HasNode.showsUnderlined (hn : chunk.HasNode n)
    (h : parse file source = .ok chunk) (hline : n.span.start.line = n.span.stop.line)
    (hlocation : p.location = some (.ofSpan chunk.file n.span))
    (hsource : p.source = some (Text.ofChars source)) :
    ShowsUnderlined (p.render false) (Text.ofChars source) n.span.start.line
      (Text.ofChars (n.span.text source)) p.label := by
  have hplaced := hn.isPlaced h
  exact showsUnderlined_of_piece (hn.span_in h) hplaced.nonempty.le hline (hn.text_last h)
    (fun hnil => absurd hnil hplaced.text_ne_nil) hlocation hsource

/-! ## Carets under a node -/

/-- A problem with the place of a node that begins and ends in one line is shown with carets under
exactly the text of the node; also one with the place of the whole chunk, unless the source ends with
a carriage return. -/
theorem carets_under_node (h : parse file source = .ok chunk) (s : Span)
    (hs : (∃ n, chunk.HasNode n ∧ n.span = s) ∨
      chunk.span = s ∧ source.getLast? ≠ some '\r')
    (hline : s.start.line = s.stop.line) (hlocation : p.location = some (.ofSpan chunk.file s))
    (hsource : p.source = some (Text.ofChars source)) :
    ShowsUnderlined (p.render false) (Text.ofChars source) s.start.line
      (Text.ofChars (s.text source)) p.label := by
  rcases hs with ⟨n, hn, rfl⟩ | ⟨rfl, hlast⟩
  · exact hn.showsUnderlined h hline hlocation hsource
  · have htext : chunk.span.text source = source := by
      rw [Chunk.span, source_of_parse h]
      exact List.take_length
    rw [← htext] at hlast
    exact showsUnderlined_of_piece (Chunk.span_in_of_parse h) (Nat.zero_le _) hline hlast
      (fun hnil => htext ▸ hnil) hlocation hsource

/-! ### Carriage returns at the end of a line -/

/-- The problem of a piece of a source. -/
def problemAt (source : List Char) (s : Span) : Problem where
  kind := .link
  message := "m"
  location := some (.ofSpan "m" s)
  source := some (Text.ofChars source)
  label := some "l"

/-- A string with a carriage return, in front of a line end that has one too. -/
def returnedString : List Char := "return '\r'\r\n".toList

/-- The extent of the statement. -/
def returnedSpan : Span := ⟨.start, ⟨10, 1, 11⟩⟩

/-- The carriage return in the string is shown, with a caret under it. -/
theorem carets_under_returnedString :
    (∃ chunk n, parse "m" returnedString = .ok chunk ∧ chunk.HasNode n ∧ n.span = returnedSpan) ∧
      ShowsUnderlined ((problemAt returnedString returnedSpan).render false)
        (Text.ofChars returnedString) 1 (Text.ofChars "return '\r'".toList) (some "l") := by
  have hrun : (parse "m" returnedString).toOption.any (fun chunk =>
      chunk.file = ("m" : Text) && chunk.block.nodes.any fun n => n.span = returnedSpan) = true := by
    decide +kernel
  obtain ⟨chunk, hparse, hrun⟩ := exists_ok_of_any hrun
  obtain ⟨hfile, hnode⟩ := Bool.and_eq_true_iff.1 hrun
  obtain ⟨n, hn, hspan⟩ := List.any_eq_true.1 hnode
  have hspan : n.span = returnedSpan := of_decide_eq_true hspan
  have hn : chunk.HasNode n := .top hn
  refine ⟨⟨chunk, n, hparse, hn, hspan⟩, ?_⟩
  have hfile : chunk.file = ("m" : Text) := of_decide_eq_true hfile
  exact carets_under_node (p := problemAt returnedString returnedSpan) hparse returnedSpan
    (.inl ⟨n, hn, hspan⟩) rfl (by rw [hfile]; rfl) rfl

/-- A source that ends with a carriage return. -/
def endedByReturn : List Char := "return x\r".toList

/-- The carriage return at the end of a source belongs to the chunk and is not shown. -/
theorem carets_past_endedByReturn :
    ∃ chunk, parse "m" endedByReturn = .ok chunk ∧
      chunk.span.start.line = chunk.span.stop.line ∧
      ¬ShowsUnderlined ((problemAt endedByReturn chunk.span).render false)
        (Text.ofChars endedByReturn) 1 (Text.ofChars (chunk.span.text endedByReturn)) (some "l") := by
  have hrun : (parse "m" endedByReturn).toOption.any (fun _ => true) = true := by decide +kernel
  obtain ⟨chunk, hparse, -⟩ := exists_ok_of_any hrun
  have hspan : chunk.span = ⟨.start, .endOf endedByReturn⟩ := by
    rw [Chunk.span, source_of_parse hparse]
  refine ⟨chunk, hparse, by rw [hspan]; rfl, ?_⟩
  rw [hspan]
  rintro ⟨above, below, snippet, underline, hshown, -, gutter, indent, count, -, -, hmarked⟩
  have hreturn : CodePoint.ofChar '\r' ∈ Text.ofChars
      ((⟨.start, .endOf endedByReturn⟩ : Span).text endedByReturn) := by decide
  rw [← hmarked] at hreturn
  have hreturn := List.mem_of_mem_drop (List.mem_of_mem_take hreturn)
  have hline : snippet ∈ above ++ snippet :: underline :: below := by simp
  have hmem : CodePoint.ofChar '\r' ∈ Text.join "\n" (above ++ snippet :: underline :: below) :=
    Text.subset_join hline hreturn
  rw [← hshown] at hmem
  revert hmem
  decide

end TypedLinks
