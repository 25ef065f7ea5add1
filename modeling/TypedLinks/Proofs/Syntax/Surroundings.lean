import TypedLinks.Proofs.Lexing.Ignored
import TypedLinks.Proofs.Syntax.Blocks
import TypedLinks.Proofs.Syntax.Spans

/-!
# Around the statements

The leading trivia of a chunk, the text of its statements and its trailing trivia make up its source.
No token stands before the first statement, and none behind a `return`. Behind another last statement
there can be a semicolon that belongs to none.
-/

namespace TypedLinks.Luau

/-! ## Order of the statements -/

theorem InOrder.nonempty {tokens : List Token} (h : InOrder tokens) {s : Span}
    (hs : Tree.extentOf tokens = some s) : s.start.offset < s.stop.offset := by
  obtain ⟨first, -, hfirst, -, -, -⟩ := extentOf_eq_some hs
  have hmem := List.mem_of_head? hfirst
  have hpos := h.1 first hmem
  obtain ⟨hstart, hstop⟩ := h.inside hs hmem
  omega

theorem Block.map_span_nodes (b : Block) : b.nodes.map SyntaxNode.span = b.spans := by
  rw [Block.nodes, List.map_append, List.map_map, List.map_map]
  rfl

/-- A list of spans in order starts before it ends. -/
theorem start_le_stop {spans : List Span} (hpos : ∀ s ∈ spans, s.start.offset < s.stop.offset)
    (horder : spans.Pairwise Span.Before) {first last : Span} (hfirst : spans.head? = some first)
    (hlast : spans.getLast? = some last) : first.start.offset ≤ last.stop.offset := by
  obtain ⟨others, rfl⟩ := List.head?_eq_some_iff.1 hfirst
  have hstart := hpos first List.mem_cons_self
  have hstop := hpos last (List.mem_of_getLast? hlast)
  rcases List.mem_cons.1 (List.mem_of_getLast? hlast) with rfl | hmem
  · omega
  · have hbefore : first.Before last := List.rel_of_pairwise_cons horder hmem
    unfold Span.Before at hbefore
    omega

section Chunk

variable {file : Text} {source : List Char} {chunk : Chunk}

/-- The statements of a chunk start before they end. -/
theorem Chunk.start_le_stop (h : parse file source = .ok chunk) {first last : Span}
    (hfirst : chunk.block.spans.head? = some first)
    (hlast : chunk.block.spans.getLast? = some last) :
    first.start.offset ≤ last.stop.offset := by
  have hnodes := arranged_of_parse h
  obtain ⟨ts, own, hblock, -, -⟩ := parse_eq_ok_iff.1 h
  obtain ⟨a, g, -, hspaced, -⟩ := spaced_of_parseTree hblock.parseTree
  rw [tokens_of_parseTree hblock.parseTree] at hspaced
  refine Luau.start_le_stop ?_ ?_ hfirst hlast
  · intro s hs
    rw [← Block.map_span_nodes] at hs
    obtain ⟨n, hn, rfl⟩ := List.mem_map.1 hs
    obtain ⟨own, hown, hextent, -⟩ := hnodes.run hn
    exact (hspaced.inOrder.of_infix hown).nonempty hextent
  · rw [← Block.map_span_nodes]
    exact hnodes.pairwise hspaced.inOrder

/-! ## Pieces of the source -/

theorem Chunk.leadingTrivia_eq_gap (h : parse file source = .ok chunk) :
    chunk.leadingTrivia = gap 0 source := by
  obtain ⟨ts, own, hblock, -, rfl⟩ := parse_eq_ok_iff.1 h
  exact hblock.leadingTrivia

theorem ignored_of_gap_eq {w : List Char} (h : gap 0 w = w) : Ignored [] w := by
  have hw := ignored_gap w
  rwa [h, List.drop_length] at hw

theorem Chunk.ignored_trailingTrivia (h : parse file source = .ok chunk)
    (hlast : chunk.block.last.isSome = true) : Ignored [] chunk.trailingTrivia := by
  obtain ⟨ts, own, hblock, -, rfl⟩ := parse_eq_ok_iff.1 h
  obtain ⟨r, hr⟩ := Option.isSome_iff_exists.1 hlast
  obtain ⟨q, j, hreads, hend⟩ := hblock.reads_to_end
  rw [hblock.trailingTrivia hr hreads]
  exact ignored_of_gap_eq hend

/-- **What surrounds the statements of a chunk**: with their text it makes up the source. The leading
trivia is a row of white space and comments, in its place and by itself, and so is the trailing trivia
behind a `return`. A chunk without statements is leading trivia only. -/
theorem surroundings_of_parse (h : parse file source = .ok chunk) :
    (∀ first last, chunk.block.spans.head? = some first →
      chunk.block.spans.getLast? = some last →
      source = chunk.leadingTrivia ++ (first.through last).text source ++ chunk.trailingTrivia) ∧
    (∃ rest, source = chunk.leadingTrivia ++ rest ∧ Ignored rest chunk.leadingTrivia) ∧
    Ignored [] chunk.leadingTrivia ∧
    (chunk.block.last.isSome = true → Ignored [] chunk.trailingTrivia) ∧
    (chunk.block.spans = [] → chunk.leadingTrivia = source ∧ chunk.trailingTrivia = []) := by
  have hsource := source_of_parse h
  have hleading := ignored_gap source
  rw [← Chunk.leadingTrivia_eq_gap h] at hleading
  refine ⟨?_, ⟨_, ?_, hleading⟩, hleading.alone, Chunk.ignored_trailingTrivia h, ?_⟩
  · intro first last hfirst hlast
    have hle := Chunk.start_le_stop h hfirst hlast
    rw [Chunk.leadingTrivia, Chunk.trailingTrivia, hfirst, hlast, hsource]
    dsimp only
    rw [Span.text, Span.through, ← List.drop_take]
    have hbefore : source.take first.start.offset =
        (source.take last.stop.offset).take first.start.offset := by
      rw [List.take_take, Nat.min_eq_left hle]
    rw [hbefore, List.take_append_drop, List.take_append_drop]
  · rw [Chunk.leadingTrivia_eq_gap h, gap_append_drop]
  · intro hspans
    rw [Chunk.leadingTrivia, Chunk.trailingTrivia, hspans]
    exact ⟨hsource, rfl⟩

/-- A source between comments, one of which opens a bracket and leaves it open, with semicolons. -/
def framedSource : List Char :=
  "--[==[ a ]] ]==] --[=[ b\n local x = 1 ; do end return f; --[[\n\n]] -- c".toList

theorem framedSource_surroundings : ∃ chunk, parse "m" framedSource = .ok chunk ∧
    chunk.block.statements.length = 2 ∧ chunk.block.last.isSome = true ∧
    (∀ first last, chunk.block.spans.head? = some first →
      chunk.block.spans.getLast? = some last →
      framedSource =
        chunk.leadingTrivia ++ (first.through last).text framedSource ++ chunk.trailingTrivia) ∧
    Ignored [] chunk.leadingTrivia ∧ Ignored [] chunk.trailingTrivia := by
  have hrun : (parse "m" framedSource).toOption.any (fun chunk =>
      chunk.block.statements.length = 2 && chunk.block.last.isSome) = true := by
    unfold framedSource
    rw [String.toList_ofList]
    decide +kernel
  obtain ⟨chunk, hparse, hrun⟩ := exists_ok_of_any hrun
  obtain ⟨hlength, hlast⟩ := Bool.and_eq_true_iff.1 hrun
  obtain ⟨hsplit, -, hleading, htrailing, -⟩ := surroundings_of_parse hparse
  exact ⟨chunk, hparse, of_decide_eq_true hlength, hlast, hsplit, hleading, htrailing hlast⟩

end Chunk

end TypedLinks.Luau
