import TypedLinks.Proofs.Syntax.Declarations

/-!
# Chunks and their trees

A source has a chunk exactly if a block is read from its start to its end whose parts can be built.
-/

namespace TypedLinks.Luau

open Grammar

/-- A block that is read from the start of a source to its end, and the parts of its children. -/
structure ReadsBlock (source : List Char) (ts : List Tree) (own : List Part) : Prop where
  reads : ReadsChunk source (.node .block .block ts)
  parts : ∃ span, Tree.partsOf ts = .ok (own, span)

namespace ReadsBlock

variable {source : List Char} {ts : List Tree} {own : List Part}

theorem wellFormed (h : ReadsBlock source ts own) : (Tree.node .block .block ts).WellFormed := by
  obtain ⟨q, j, s, r, hreads, -, -, -⟩ := h.reads
  exact hreads.wellFormed State.initial_mem_all _ (List.mem_singleton.2 rfl)

theorem parseTree (h : ReadsBlock source ts own) :
    parseTree source = .ok (.node .chunk .spliced [.node .block .block ts]) :=
  parseTree_eq_ok_iff.2 ⟨_, h.reads, rfl⟩

end ReadsBlock

/-- The chunk of a file from the parts of its block. -/
def chunkOf (file : Text) (source : List Char) (own : List Part) : Chunk :=
  ⟨file, source, ⟨own.filterMap Part.statement?, own.findSome? Part.returned?⟩⟩

theorem mapError_eq_ok {ε ε' α : Type} {f : ε → ε'} {e : Except ε α} {a : α} :
    e.mapError f = .ok a ↔ e = .ok a := by
  cases e <;> simp [Except.mapError]

theorem exists_ok_of_any {ε α : Type} {r : Except ε α} {f : α → Bool}
    (h : r.toOption.any f = true) : ∃ a, r = .ok a ∧ f a = true := by
  cases r with
  | error e => contradiction
  | ok a => exact ⟨a, rfl, h⟩

theorem Tree.block_eq_ok_iff {t : Tree} {b : Block} :
    t.block = .ok b ↔ ∃ span, t.parts = .ok ([.block b], span) := by
  unfold Tree.block
  cases t.parts with
  | error e =>
    simp only [bind, Except.bind]
    constructor
    · exact fun h => by contradiction
    · rintro ⟨span, h⟩
      contradiction
  | ok r =>
    obtain ⟨ps, span⟩ := r
    simp only [bind, Except.bind, Except.ok.injEq, Prod.mk.injEq]
    constructor
    · intro h
      split at h
      · rename_i b' span' heq
        cases heq
        cases h
        exact ⟨_, rfl, rfl⟩
      · contradiction
    · rintro ⟨span', rfl, rfl⟩
      rfl

/-- A file has a chunk if a block of it is read, and its nodes can carry the name of the file. -/
theorem parse_eq_ok_iff {file : Text} {source : List Char} {chunk : Chunk} :
    parse file source = .ok chunk ↔
      ∃ ts own, ReadsBlock source ts own ∧ (file = [] → Tree.tokensOf ts = []) ∧
        chunk = chunkOf file source own := by
  constructor
  · intro h
    unfold parse at h
    split at h
    · contradiction
    · rename_i tree htree
      obtain ⟨b, hreads, rfl⟩ := parseTree_eq_ok_iff.1 htree
      obtain ⟨l, ts, rfl⟩ := Tree.symbol_eq_category_iff.1 hreads.symbol
      rw [mapError_eq_ok, Chunk.ofTree] at h
      split at h
      · contradiction
      · rename_i hfile
        obtain ⟨q, j, s, r, hr, -⟩ := id hreads
        have hwell := hr.wellFormed State.initial_mem_all _ (List.mem_singleton.2 rfl)
        obtain ⟨rfl, -⟩ := Tree.block_cases hwell
        cases hblock : (Tree.node .chunk .spliced [.node .block .block ts]).block with
        | error e =>
          rw [hblock] at h
          contradiction
        | ok b =>
          rw [hblock] at h
          cases h
          obtain ⟨span, hparts⟩ := Tree.block_eq_ok_iff.1 hblock
          obtain ⟨own, hown, hcontribute⟩ := Tree.parts_node_eq_ok.1 hparts
          rw [Tree.contribute_spliced] at hcontribute
          cases hcontribute
          rw [Tree.partsOf_singleton] at hown
          obtain ⟨own, hown', hps⟩ := (Tree.parts_block_eq_ok_iff hwell).1 hown
          obtain rfl := Part.block.inj (List.singleton_inj.1 hps)
          refine ⟨ts, own, ⟨hreads, span, hown'⟩, ?_, rfl⟩
          intro hempty
          simpa [Tree.tokens, Tree.tokensOf, hempty] using hfile
  · rintro ⟨ts, own, h, hfile, rfl⟩
    obtain ⟨span, hown⟩ := h.parts
    have hparts := (Tree.parts_block_eq_ok_iff h.wellFormed).2 ⟨own, hown, rfl⟩
    have hblock : (Tree.node .chunk .spliced [.node .block .block ts]).block =
        .ok ⟨own.filterMap Part.statement?, own.findSome? Part.returned?⟩ :=
      Tree.block_eq_ok_iff.2 ⟨span, Tree.parts_node_eq_ok.2
        ⟨_, Tree.partsOf_singleton.2 hparts, Tree.contribute_spliced _ _⟩⟩
    have hfile' : ¬(file = [] ∧
        (Tree.node .chunk .spliced [.node .block .block ts]).tokens ≠ []) := by
      rintro ⟨hempty, hne⟩
      exact hne (by simpa [Tree.tokens, Tree.tokensOf] using hfile hempty)
    unfold parse
    rw [h.parseTree]
    simp only [Chunk.ofTree, if_neg hfile', hblock]
    rfl

theorem source_of_parse {file : Text} {source : List Char} {chunk : Chunk}
    (h : parse file source = .ok chunk) : chunk.source = source := by
  obtain ⟨ts, own, -, -, rfl⟩ := parse_eq_ok_iff.1 h
  rfl

/-- A source has the same block under every name of its file. -/
theorem parse_named {file file' : Text} {source : List Char} {chunk : Chunk}
    (h : parse file source = .ok chunk) (hfile' : file' ≠ []) :
    parse file' source = .ok { chunk with file := file' } := by
  obtain ⟨ts, own, hblock, -, rfl⟩ := parse_eq_ok_iff.1 h
  exact parse_eq_ok_iff.2 ⟨ts, own, hblock, fun hnil => absurd hnil hfile', rfl⟩

/-- A source in which the machine gets stuck has no chunk. -/
theorem parse_ne_ok_of_stuck {file : Text} {source : List Char} {ts : List Tree} {q : State}
    {i : Place} (h : Reads .initial (.start source) ts q i) (hstuck : Stuck q i) (chunk : Chunk) :
    parse file source ≠ .ok chunk := by
  intro hparse
  obtain ⟨us, own, hblock, -⟩ := parse_eq_ok_iff.1 hparse
  exact h.run_ne_ok hstuck _ _ hblock.parseTree

/-- The types that a file exports are those that the trees of its block declare. -/
theorem ReadsBlock.exports {file : Text} {source : List Char} {ts : List Tree} {own : List Part}
    (h : ReadsBlock source ts own) :
    List.Forall₂ (fun T d => ∃ t, Tree.IsDeclaration T t ∧ d = Declaration.ofSyntax source t)
      (Tree.node .chunk .spliced [.node .block .block ts]).exportTrees
      (chunkOf file source own).exports := by
  obtain ⟨span, hown⟩ := h.parts
  rw [Chunk.exports, List.forall₂_map_right_iff]
  exact (Tree.exports_of_block h.wellFormed hown).imp fun T d hd => ⟨d, hd, rfl⟩

end TypedLinks.Luau
