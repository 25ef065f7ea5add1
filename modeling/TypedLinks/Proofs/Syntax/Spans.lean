import TypedLinks.Proofs.Parsing.Tokens
import TypedLinks.Proofs.Syntax.Nodes

/-!
# Spans

Where the nodes of a source stand in it. The tokens of a source follow each other, so whatever spans a
run of them starts where one starts and ends where one ends, and what spans runs inside a run or one
behind the other lies inside it or behind the other.
-/

namespace TypedLinks.Luau

namespace Span

/-- Whether a span ends before another one starts, or there. -/
def Before (a b : Span) : Prop := a.stop.offset ≤ b.start.offset

/-- Whether a span lies inside another one. -/
def Inside (a b : Span) : Prop := b.start.offset ≤ a.start.offset ∧ a.stop.offset ≤ b.stop.offset

end Span

/-! ## Tokens in order -/

/-- Whether no token is empty and each ends before the next one starts. -/
def InOrder (tokens : List Token) : Prop :=
  (∀ t ∈ tokens, t.span.start.offset < t.span.stop.offset) ∧
    tokens.Pairwise fun t u => t.span.Before u.span

/-- A token stands where it says, in a text that starts at a position. -/
theorem Spaced.mem {p : Position} {a : List Char} {ts : List Token} {t : Token}
    (h : Spaced p a ts) (ht : t ∈ ts) :
    ∃ x y, a = x ++ (t.text ++ y) ∧ t.text ≠ [] ∧
      t.span = ⟨p.advance x, p.advance (x ++ t.text)⟩ := by
  induction h with
  | nil => contradiction
  | @cons p g a u us _ _ hne hspan _ ih =>
    rcases List.mem_cons.1 ht with rfl | ht
    · exact ⟨g, a, List.append_assoc g _ a, hne, hspan⟩
    · obtain ⟨x, y, rfl, hne', hspan'⟩ := ih ht
      refine ⟨g ++ u.text ++ x, y, by simp, hne', ?_⟩
      rw [hspan', hspan, List.append_assoc _ x]
      simp only [← Position.advance_append]

theorem Spaced.inOrder {p : Position} {a : List Char} {ts : List Token} (h : Spaced p a ts) :
    InOrder ts := by
  constructor
  · intro t ht
    obtain ⟨x, y, -, hne, hspan⟩ := h.mem ht
    have := List.length_pos_iff.2 hne
    rw [hspan]
    simp only [Position.offset_advance, List.length_append]
    omega
  · induction h with
    | nil => exact .nil
    | cons _ _ _ hspan hothers ih =>
      refine .cons (fun u hu => ?_) ih
      obtain ⟨x, y, -, -, hspan'⟩ := hothers.mem hu
      rw [Span.Before, hspan', Position.offset_advance]
      exact Nat.le_add_right _ _

theorem InOrder.of_infix {tokens own : List Token} (h : InOrder tokens) (hown : own <:+: tokens) :
    InOrder own :=
  ⟨fun t ht => h.1 t (hown.subset ht), h.2.sublist hown.sublist⟩

/-- The extent of some tokens is from the first of them to the last one. -/
theorem extentOf_eq_some {tokens : List Token} {s : Span} (h : Tree.extentOf tokens = some s) :
    ∃ first last, tokens.head? = some first ∧ tokens.getLast? = some last ∧
      s.start = first.span.start ∧ s.stop = last.span.stop := by
  induction tokens generalizing s with
  | nil => contradiction
  | cons t ts ih =>
    rw [Tree.extentOf] at h
    cases hts : Tree.extentOf ts with
    | none =>
      rw [hts] at h
      cases h
      rw [Tree.extentOf_eq_none_iff.1 hts]
      exact ⟨t, t, rfl, rfl, rfl, rfl⟩
    | some s' =>
      rw [hts] at h
      cases h
      obtain ⟨first, last, -, hlast, -, hstop⟩ := ih hts
      exact ⟨t, last, rfl, by rw [List.getLast?_cons, hlast]; rfl, rfl, hstop⟩

/-- Tokens lie inside the extent of those around them. -/
theorem InOrder.inside {tokens : List Token} (h : InOrder tokens) {s : Span}
    (hs : Tree.extentOf tokens = some s) {t : Token} (ht : t ∈ tokens) : t.span.Inside s := by
  obtain ⟨first, last, hfirst, hlast, hstart, hstop⟩ := extentOf_eq_some hs
  rw [Span.Inside, hstart, hstop]
  constructor
  · obtain ⟨others, rfl⟩ := List.head?_eq_some_iff.1 hfirst
    rcases List.mem_cons.1 ht with rfl | ht
    · exact Nat.le_refl _
    · have hbefore : first.span.Before t.span := List.rel_of_pairwise_cons h.2 ht
      have hfirst := h.1 first List.mem_cons_self
      unfold Span.Before at hbefore
      omega
  · obtain ⟨others, rfl⟩ := List.getLast?_eq_some_iff.1 hlast
    rcases List.mem_append.1 ht with ht | ht
    · have hbefore : t.span.Before last.span :=
        (List.pairwise_append.1 h.2).2.2 t ht last (List.mem_singleton_self last)
      have hlast := h.1 last (by simp)
      unfold Span.Before at hbefore
      omega
    · rw [List.mem_singleton.1 ht]

/-! ## Nodes in order -/

namespace Arranged

variable {ns : List SyntaxNode} {tokens : List Token} {n : SyntaxNode}

/-- A node spans a run of the tokens that it is arranged in. -/
theorem run (h : Arranged ns tokens) (hn : n ∈ ns) :
    ∃ own, own <:+: tokens ∧ Tree.extentOf own = some n.span ∧ Arranged n.children own := by
  induction h with
  | nil => contradiction
  | @cons m ns before own after hextent hchildren _ _ ih =>
    rcases List.mem_cons.1 hn with rfl | hn
    · exact ⟨own, List.infix_append before own after, hextent, hchildren⟩
    · obtain ⟨own', hown', h⟩ := ih hn
      exact ⟨own', hown'.trans (List.suffix_append (before ++ own) after).isInfix, h⟩

theorem inside (h : Arranged ns tokens) (hn : n ∈ ns) (horder : InOrder tokens) {s : Span}
    (hs : Tree.extentOf tokens = some s) : n.span.Inside s := by
  obtain ⟨own, hown, hextent, -⟩ := h.run hn
  obtain ⟨first, last, hfirst, hlast, hstart, hstop⟩ := extentOf_eq_some hextent
  have hfirst := horder.inside hs (hown.subset (List.mem_of_head? hfirst))
  have hlast := horder.inside hs (hown.subset (List.mem_of_getLast? hlast))
  rw [Span.Inside, hstart, hstop]
  exact ⟨hfirst.1, hlast.2⟩

theorem pairwise (h : Arranged ns tokens) (horder : InOrder tokens) :
    (ns.map SyntaxNode.span).Pairwise Span.Before := by
  induction h with
  | nil => exact .nil
  | @cons m ns before own after hextent _ hothers _ ih =>
    have hafter : InOrder after :=
      horder.of_infix (List.suffix_append (before ++ own) after).isInfix
    refine .cons (fun s hs => ?_) (ih hafter)
    obtain ⟨n, hn, rfl⟩ := List.mem_map.1 hs
    obtain ⟨own', hown', hextent', -⟩ := hothers.run hn
    obtain ⟨-, last, -, hlast, -, hstop⟩ := extentOf_eq_some hextent
    obtain ⟨first, -, hfirst, -, hstart, -⟩ := extentOf_eq_some hextent'
    rw [Span.Before, hstop, hstart]
    refine (List.pairwise_append.1 horder.2).2.2 last ?_ first ?_
    · exact List.mem_append_right _ (List.mem_of_getLast? hlast)
    · exact hown'.subset (List.mem_of_head? hfirst)

end Arranged

/-- The nodes below a chunk span runs of the tokens that its own nodes are arranged in. -/
theorem Chunk.HasNode.run {c : Chunk} {n : SyntaxNode} (h : c.HasNode n) {tokens : List Token}
    (hnodes : Arranged c.block.nodes tokens) :
    ∃ own, own <:+: tokens ∧ Tree.extentOf own = some n.span ∧ Arranged n.children own := by
  induction h with
  | top hmem => exact hnodes.run hmem
  | child _ hmem ih =>
    obtain ⟨outer, houter, -, hchildren⟩ := ih
    obtain ⟨own, hown, h⟩ := hchildren.run hmem
    exact ⟨own, hown.trans houter, h⟩

/-! ## Spans of a source -/

section Text

variable {source x y w : List Char} {s : Span}

/-- A span that starts where a text stands and takes it in starts with the text. -/
theorem Span.prefix_text (hsource : source = x ++ (w ++ y)) (hstart : s.start.offset = x.length)
    (hstop : x.length + w.length ≤ s.stop.offset) : w <+: s.text source := by
  rw [Span.text, hsource, hstart, List.drop_left, List.prefix_take_iff]
  exact ⟨List.prefix_append w y, by omega⟩

theorem Span.suffix_text (hsource : source = x ++ (w ++ y)) (hstart : s.start.offset ≤ x.length)
    (hstop : s.stop.offset = x.length + w.length) : w <:+ s.text source := by
  have hlength : s.stop.offset - s.start.offset = (x.drop s.start.offset ++ w).length := by
    rw [List.length_append, List.length_drop]
    omega
  rw [Span.text, hsource, List.drop_append_of_le_length hstart, hlength, ← List.append_assoc,
    List.take_left]
  exact List.suffix_append _ w

end Text

/-- What is known of the span of a node: it is not empty and in the source, from the start of a token
to the end of one, around the spans of the children, which are in order and apart. -/
structure SyntaxNode.IsPlaced (source : List Char) (n : SyntaxNode) : Prop where
  nonempty : n.span.start.offset < n.span.stop.offset
  bounded : n.span.stop.offset ≤ source.length
  first : ∃ t ∈ tokensRead source, n.span.start = t.span.start ∧ t.text <+: n.span.text source
  last : ∃ t ∈ tokensRead source, n.span.stop = t.span.stop ∧ t.text <:+ n.span.text source
  children_inside : ∀ m ∈ n.children, m.span.Inside n.span
  children_ordered : (n.children.map SyntaxNode.span).Pairwise Span.Before

/-- A node that spans a run of the tokens of a source is placed in it. -/
theorem isPlaced_of_run {source a g : List Char} {n : SyntaxNode} {own : List Token}
    (hsource : source = a ++ g) (hspaced : Spaced .start a (tokensRead source))
    (hown : own <:+: tokensRead source) (hextent : Tree.extentOf own = some n.span)
    (hchildren : Arranged n.children own) : n.IsPlaced source := by
  have horder := hspaced.inOrder.of_infix hown
  obtain ⟨first, last, hfirst, hlast, hstart, hstop⟩ := extentOf_eq_some hextent
  have hfirst := List.mem_of_head? hfirst
  have hlast := List.mem_of_getLast? hlast
  have hfirstInside := horder.inside hextent hfirst
  have hlastInside := horder.inside hextent hlast
  obtain ⟨x, y, hx, -, hxspan⟩ := hspaced.mem (hown.subset hfirst)
  obtain ⟨z, w, hz, -, hzspan⟩ := hspaced.mem (hown.subset hlast)
  rw [hxspan] at hfirstInside hstart
  rw [hzspan] at hlastInside hstop
  have hpos := horder.1 first hfirst
  rw [hxspan] at hpos
  simp only [Span.Inside, Position.offset_advance, List.length_append] at hfirstInside hlastInside hpos
  have hstartOffset : n.span.start.offset = x.length := by
    rw [hstart, Position.offset_advance, Position.start, Nat.zero_add]
  have hstopOffset : n.span.stop.offset = z.length + last.text.length := by
    rw [hstop, Position.offset_advance, Position.start, Nat.zero_add, List.length_append]
  have hfirstSource : source = x ++ (first.text ++ (y ++ g)) := by
    rw [hsource, hx]
    simp
  have hlastSource : source = z ++ (last.text ++ (w ++ g)) := by
    rw [hsource, hz]
    simp
  have hzero : Position.start.offset = 0 := rfl
  refine ⟨by omega, ?_, ⟨first, hown.subset hfirst, by rw [hstart, hxspan], ?_⟩,
    ⟨last, hown.subset hlast, by rw [hstop, hzspan], ?_⟩,
    fun m hm => hchildren.inside hm horder hextent, hchildren.pairwise horder⟩
  · rw [hlastSource, hstopOffset, List.length_append, List.length_append]
    omega
  · exact Span.prefix_text hfirstSource hstartOffset (by omega)
  · exact Span.suffix_text hlastSource (by omega) hstopOffset

/-- The nodes of a chunk span runs of the tokens of its source. -/
theorem arranged_of_parse {file : Text} {source : List Char} {chunk : Chunk}
    (h : parse file source = .ok chunk) : Arranged chunk.block.nodes (tokensRead source) := by
  obtain ⟨ts, own, hblock, -, rfl⟩ := parse_eq_ok_iff.1 h
  obtain ⟨span, hown⟩ := hblock.parts
  have htokens : Tree.tokensOf ts = tokensRead source := by
    simpa [Tree.tokens, Tree.tokensOf] using tokens_of_parseTree hblock.parseTree
  have harranged := Tree.arranged_of_partsOf
    (fun t ht ps span => (hblock.wellFormed.children t ht).arranged) hown
  rw [← Tree.nodes_of_block hblock.wellFormed hown, htokens] at harranged
  exact harranged

/-- Every node of a chunk is placed in its source. -/
theorem Chunk.HasNode.isPlaced {file : Text} {source : List Char} {chunk : Chunk} {n : SyntaxNode}
    (hn : chunk.HasNode n) (h : parse file source = .ok chunk) : n.IsPlaced source := by
  have hnodes := arranged_of_parse h
  obtain ⟨ts, own, hblock, -, rfl⟩ := parse_eq_ok_iff.1 h
  obtain ⟨a, g, hsource, hspaced, -⟩ := spaced_of_parseTree hblock.parseTree
  rw [tokens_of_parseTree hblock.parseTree] at hspaced
  obtain ⟨run, hrun, hextent, hchildren⟩ := hn.run hnodes
  exact isPlaced_of_run hsource hspaced hrun hextent hchildren

/-- Every node of a chunk is placed in its source, and the statements of the chunk and its `return`
are in order and apart. -/
theorem nodes_placed {file : Text} {source : List Char} {chunk : Chunk}
    (h : parse file source = .ok chunk) :
    (∀ n, chunk.HasNode n → n.IsPlaced source) ∧ chunk.block.spans.Pairwise Span.Before := by
  refine ⟨fun n hn => hn.isPlaced h, ?_⟩
  have hnodes := arranged_of_parse h
  obtain ⟨ts, own, hblock, -, rfl⟩ := parse_eq_ok_iff.1 h
  obtain ⟨a, g, hsource, hspaced, -⟩ := spaced_of_parseTree hblock.parseTree
  rw [tokens_of_parseTree hblock.parseTree] at hspaced
  have hpairwise := hnodes.pairwise hspaced.inOrder
  rw [Block.nodes, List.map_append, List.map_map, List.map_map] at hpairwise
  exact hpairwise

/-- A source with a chain of suffixes, an empty block, and types inside types. -/
def nestedSource : List Char :=
  "do end local a = f(x, g)['k']:m<<T>>(1) -- f\nexport type T<A = A?> = typeof((a).b) return a, x"
    |>.toList

theorem nestedSource_placed : ∃ chunk, parse "m" nestedSource = .ok chunk ∧
    chunk.block.nodes.length = 4 ∧
    (∀ n, chunk.HasNode n → n.IsPlaced nestedSource) ∧ chunk.block.spans.Pairwise Span.Before := by
  have hok : (parse "m" nestedSource).toOption.map (·.block.nodes.length) = some 4 := by
    unfold nestedSource
    rw [String.toList_ofList]
    decide +kernel
  cases hparse : parse "m" nestedSource with
  | ok chunk =>
    rw [hparse] at hok
    exact ⟨chunk, rfl, Option.some.inj hok, nodes_placed hparse⟩
  | error e =>
    rw [hparse] at hok
    contradiction

end TypedLinks.Luau
