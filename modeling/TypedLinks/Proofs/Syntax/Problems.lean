import TypedLinks.Proofs.Parsing.Faults
import TypedLinks.Proofs.Syntax.Building
import TypedLinks.Proofs.Syntax.Spans

/-!
# Where the problems of a source are

Tokens and runs of tokens stand in the source, so the nodes of a chunk do, and an expression that is
no statement. With the faults of the machine these are all the places that a problem of a source can
be at.
-/

namespace TypedLinks.Luau

/-- A span is in a source: it starts and stops in it. -/
def Span.In (source : List Char) (s : Span) : Prop := s.start.In source ∧ s.stop.In source

/-! ## Runs of tokens -/

section Runs

variable {source : List Char} {tree : Tree} {file : Text} {chunk : Chunk}

theorem span_in_of_token (h : parseTree source = .ok tree) {t : Token} (ht : t ∈ tree.tokens) :
    t.span.In source := by
  obtain ⟨a, g, rfl, hspaced, -⟩ := spaced_of_parseTree h
  obtain ⟨x, y, rfl, -, hspan⟩ := hspaced.mem ht
  rw [hspan]
  refine ⟨⟨x, ?_, rfl⟩, ⟨x ++ t.text, ?_, rfl⟩⟩
  · exact (List.prefix_append x _).trans (List.prefix_append _ g)
  · rw [← List.append_assoc]
    exact (List.prefix_append _ y).trans (List.prefix_append _ g)

theorem span_in_of_run (h : parseTree source = .ok tree) {own : List Token}
    (hown : own <:+: tree.tokens) {s : Span} (hs : Tree.extentOf own = some s) : s.In source := by
  obtain ⟨first, last, hfirst, hlast, hstart, hstop⟩ := extentOf_eq_some hs
  have hfirst := span_in_of_token h (hown.subset (List.mem_of_head? hfirst))
  have hlast := span_in_of_token h (hown.subset (List.mem_of_getLast? hlast))
  exact ⟨hstart ▸ hfirst.1, hstop ▸ hlast.2⟩

/-- The nodes below a chunk stand in its source. -/
theorem Chunk.HasNode.span_in (h : parse file source = .ok chunk) {n : SyntaxNode}
    (hn : chunk.HasNode n) : n.span.In source := by
  obtain ⟨own, hown, hextent, -⟩ := hn.run (arranged_of_parse h)
  obtain ⟨ts, parts, hblock, -, -⟩ := parse_eq_ok_iff.1 h
  rw [← tokens_of_parseTree hblock.parseTree] at hown
  exact span_in_of_run hblock.parseTree hown hextent

end Runs

/-! ## Expressions that are no statements -/

/-- Only a call that stands as a statement has to be one. -/
theorem eq_of_assemble_eq_notACall {l : Construct} {s s' : Span} {own : List Part}
    (h : assemble l s own = .error (.notACall s')) : ∃ e, own = [.expression e] ∧ e.span = s' := by
  rcases fault_of_assemble h with hfault | ⟨-, e, rfl, hfault⟩ | ⟨-, _, _, -, -, hfault⟩
  · cases hfault
  · exact ⟨e, rfl, (NodeFault.notACall.inj hfault).symm⟩
  · cases hfault

namespace Tree

theorem tokens_infix_of_mem {t : Tree} {ts : List Tree} (h : t ∈ ts) :
    t.tokens <:+: tokensOf ts := by
  obtain ⟨before, after, rfl⟩ := List.append_of_mem h
  rw [tokensOf_append, tokensOf, ← List.append_assoc]
  exact List.infix_append _ _ _

theorem Within.tokens_infix {u t : Tree} (h : u.Within t) : u.tokens <:+: t.tokens := by
  induction h with
  | self => exact List.infix_rfl
  | child mem _ ih => exact ih.trans (tokens_infix_of_mem mem)

/-- The expression that is no statement spans a run of the tokens of the tree. -/
theorem WellFormed.run_of_notACall {t : Tree} (h : t.WellFormed) {s : Span}
    (hparts : t.parts = .error (.notACall s)) :
    ∃ own, own <:+: t.tokens ∧ extentOf own = some s := by
  obtain ⟨c, l, ts, own, s', hwithin, -, hown, hp⟩ := h.exists_fault hparts
  obtain ⟨e, rfl, rfl⟩ := eq_of_assemble_eq_notACall hp
  have hchildren := (h.within hwithin).children
  have harranged := arranged_of_partsOf (fun t ht ps span => (hchildren t ht).arranged) hown
  obtain ⟨run, hrun, hextent, -⟩ := harranged.run (n := .expression e) List.mem_cons_self
  exact ⟨run, List.IsInfix.trans hrun hwithin.tokens_infix, hextent⟩

end Tree

/-! ## Problems -/

theorem Tree.parts_of_block_eq_error {t : Tree} {fault : NodeFault} (h : t.block = .error fault) :
    t.parts = .error fault ∨ fault = .malformed := by
  unfold block at h
  cases hparts : t.parts with
  | error e =>
    rw [hparts] at h
    cases h
    exact .inl rfl
  | ok r =>
    rw [hparts] at h
    simp only [bind, Except.bind] at h
    split at h <;> cases h
    exact .inr rfl

variable {file : Text} {source : List Char} {problem : Problem}

/-- The problem of a source is a fault of the machine, or an expression that is no statement. -/
theorem problem_of_parse (h : parse file source = .error (.problem problem)) :
    (∃ e, parseTree source = .error e ∧ problem = e.problem file source) ∨
      ∃ tree s, parseTree source = .ok tree ∧ tree.parts = .error (.notACall s) ∧
        problem = syntaxProblem file source (.ofSpan file s)
          "syntax error: expression is not a statement" := by
  unfold parse at h
  cases htree : parseTree source with
  | error e =>
    rw [htree] at h
    cases h
    exact .inl ⟨e, rfl, rfl⟩
  | ok tree =>
    rw [htree] at h
    dsimp only at h
    unfold Chunk.ofTree at h
    split at h
    · cases h
    · cases hblock : tree.block with
      | ok b =>
        rw [hblock] at h
        cases h
      | error fault =>
        rw [hblock] at h
        cases fault <;> cases h
        exact .inr ⟨tree, _, rfl, (Tree.parts_of_block_eq_error hblock).resolve_right nofun, rfl⟩

/-- A problem that shows a source and names a position in it is located there. -/
theorem located_of_position {p : Position} (hp : p.In source)
    (hsource : problem.source = some (Text.ofChars source)) {l : Location}
    (hlocation : problem.location = some l) (hfile : l.file = file) (hline : l.line = p.line)
    (hcolumn : l.column = p.column) : problem.LocatedIn file source :=
  ⟨hsource, l, hlocation, hfile, hp.isIn hline hcolumn⟩

/-- A source that is not parsed has a problem that is located in it. -/
theorem located_of_parse (h : parse file source = .error (.problem problem)) :
    problem.LocatedIn file source := by
  rcases problem_of_parse h with ⟨e, he, rfl⟩ | ⟨tree, s, htree, hparts, rfl⟩
  · obtain ⟨hsource, l, hlocation, hfile, hline, hcolumn, -⟩ := e.location_problem file source
    exact located_of_position (fault_in_of_parseTree he) hsource hlocation hfile hline hcolumn
  · obtain ⟨own, hown, hextent⟩ := (wellFormed_of_parseTree htree).run_of_notACall hparts
    exact located_of_position (span_in_of_run htree hown hextent).1 rfl rfl rfl rfl rfl

end TypedLinks.Luau
