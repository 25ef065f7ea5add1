import TypedLinks.Proofs.Forwarding.Forwarded
import TypedLinks.Proofs.Parsing.Uncommented
import TypedLinks.Proofs.Syntax.Chunk
import TypedLinks.Proofs.Syntax.Rebuilt

/-!
# A comment is as good as a space

Forwarding looks at the names and the generic parameters of declarations, and of a default at the
names that it mentions. None of these has a place. So a source in which a space stands for each
comment has the same tokens, the same block, the same require paths and the same forwarded
declarations as the source with the comments.
-/

namespace TypedLinks

open Luau

/-! ## Parameters -/

namespace Parameter

/-- A parameter without the place of its default and without its text. -/
def unplaced (p : Parameter) : Parameter :=
  { p with default := p.default.map fun d => ⟨d.type.unplaced, []⟩ }

@[simp] theorem reference_unplaced (p : Parameter) : p.unplaced.reference = p.reference := rfl

@[simp] theorem isDropped_unplaced (names : List Name) (p : Parameter) :
    p.unplaced.isDropped names = p.isDropped names := by
  unfold isDropped unplaced
  cases p.default with
  | none => rfl
  | some d =>
    rw [Option.map_some, Option.any_some, Option.any_some, TypeNode.isResolvable_unplaced]

theorem forward_unplaced (names : List Name) (p : Parameter) :
    p.unplaced.forward names = (p.forward names).unplaced := by
  rw [forward, forward, isDropped_unplaced]
  split <;> rfl

theorem unplaced_ofSyntax (source : List Char) (g : GenericParameter) :
    (ofSyntax source g).unplaced = ofSyntax [] g.unplaced := by
  cases hdefault : g.default <;>
    simp [ofSyntax, unplaced, GenericParameter.unplaced, hdefault, Span.text]

end Parameter

/-! ## Declarations -/

namespace Declaration

/-- A declaration without the places of its defaults and without their texts. -/
def unplaced (d : Declaration) : Declaration :=
  { d with generics := d.generics.map (·.map Parameter.unplaced) }

/-- What a declaration declares: all of it that has no place, apart from its body. -/
def head (d : Declaration) : Declaration := { d.unplaced with body := [] }

@[simp] theorem parameters_head (d : Declaration) :
    d.head.parameters = d.parameters.map Parameter.unplaced := by
  unfold parameters head unplaced
  cases d.generics <;> rfl

theorem head_ofSyntax (source : List Char) (t : TypeDeclaration) :
    (ofSyntax source t).head = ofSyntax [] t.unplaced := by
  have hgenerics : (t.generics.map (·.map (Parameter.ofSyntax source))).map
      (·.map Parameter.unplaced) =
      (t.generics.map (·.map GenericParameter.unplaced)).map (·.map (Parameter.ofSyntax [])) := by
    cases t.generics with
    | none => rfl
    | some gs =>
      simp only [Option.map_some, List.map_map, Function.comp_def, Parameter.unplaced_ofSyntax]
  rw [head, unplaced, ofSyntax, ofSyntax, TypeDeclaration.unplaced]
  simp only [hgenerics, Span.text, List.take_nil, List.drop_nil]

/-- A declaration is forwarded by what it declares. -/
theorem forward_head (names : List Name) (d : Declaration) :
    d.head.forward names = (d.forward names).unplaced := by
  have hgenerics : (d.generics.map (·.map Parameter.unplaced)).map
      (·.map (Parameter.forward names)) =
      (d.generics.map (·.map (Parameter.forward names))).map (·.map Parameter.unplaced) := by
    cases d.generics with
    | none => rfl
    | some ps =>
      simp only [Option.map_some, List.map_map, Function.comp_def, Parameter.forward_unplaced]
  rw [forward, parameters_head, List.map_map]
  simp only [Function.comp_def, Parameter.reference_unplaced]
  rw [head, unplaced, hgenerics]
  rfl

end Declaration

theorem scope_map_head (earlier : List Declaration) (d : Declaration) :
    scope (earlier.map Declaration.head) d.head = scope earlier d := by
  rw [scope, scope, Declaration.parameters_head, List.map_map, List.map_map]
  rfl

/-- The declarations of a module are forwarded by what they declare. -/
theorem forwardAll_map_head (ds : List Declaration) :
    forwardAll (ds.map Declaration.head) = (forwardAll ds).map Declaration.unplaced := by
  apply List.ext_getElem?
  intro k
  rw [getElem?_forwardAll, List.getElem?_map, List.getElem?_map, getElem?_forwardAll,
    ← List.map_take]
  cases ds[k]? with
  | none => rfl
  | some d =>
    rw [Option.map_some, Option.map_some, Option.map_some, Option.map_some, scope_map_head,
      Declaration.forward_head]

namespace Luau

/-! ## Blocks -/

theorem Statement.exported?_unplaced (s : Statement) :
    s.unplaced.exported? = s.exported?.map TypeDeclaration.unplaced := by
  cases s with
  | typeDeclaration d =>
    rw [unplaced, exported?, exported?, TypeDeclaration.unplaced]
    split <;> rfl
  | _ => rfl

/-- The expressions of a statement. -/
def Statement.expressions : Statement → List Expression
  | localAssignment _ _ es => es
  | _ => []

theorem Statement.expressions_unplaced (s : Statement) :
    s.unplaced.expressions = s.expressions.map Expression.unplaced := by
  cases s <;> rfl

namespace Block

/-- The expressions that a block assigns to locals and returns. -/
def expressions (b : Block) : List Expression :=
  b.statements.flatMap Statement.expressions ++ b.last.toList.flatMap Return.expressions

theorem expressions_unplaced (b : Block) :
    b.unplaced.expressions = b.expressions.map Expression.unplaced := by
  rw [expressions, expressions, List.map_append, List.map_flatMap, List.map_flatMap, unplaced,
    List.flatMap_map]
  simp only [Statement.expressions_unplaced]
  cases b.last <;> simp [Return.unplaced]

end Block

/-! ## Chunks -/

namespace Chunk

variable {file : Text} {source : List Char} {chunk chunk' : Chunk}

/-- The forwarded declarations of a chunk do not depend on places. -/
theorem forwardAll_exports_congr (h : chunk'.block.unplaced = chunk.block.unplaced) :
    (forwardAll chunk'.exports).map Declaration.unplaced =
      (forwardAll chunk.exports).map Declaration.unplaced := by
  have hheads (c : Chunk) : c.exports.map Declaration.head =
      (c.block.unplaced.statements.filterMap Statement.exported?).map
        (Declaration.ofSyntax []) := by
    rw [exports, Block.unplaced, List.filterMap_map, List.map_map]
    simp only [Function.comp_def, Declaration.head_ofSyntax, Statement.exported?_unplaced]
    rw [← List.map_filterMap, List.map_map]
    rfl
  rw [← forwardAll_map_head, ← forwardAll_map_head, hheads, hheads, h]

/-- The require paths of a chunk do not depend on places, and neither do the reasons to refuse the
expressions that are none. -/
theorem ofCall_expressions_congr (h : chunk'.block.unplaced = chunk.block.unplaced) :
    chunk'.block.expressions.map
        (fun e => (RequirePath.ofCall e).mapError RequirePath.Fault.unplaced) =
      chunk.block.expressions.map
        fun e => (RequirePath.ofCall e).mapError RequirePath.Fault.unplaced := by
  have hpaths (b : Block) : b.expressions.map
      (fun e => (RequirePath.ofCall e).mapError RequirePath.Fault.unplaced) =
      b.unplaced.expressions.map RequirePath.ofCall := by
    rw [Block.expressions_unplaced, List.map_map]
    simp only [Function.comp_def, RequirePath.ofCall_unplaced]
  rw [hpaths, hpaths, h]

/-- A source with a space for each comment has the same chunk, apart from places. -/
theorem parse_blankComments (h : parse file source = .ok chunk) :
    ∃ chunk', parse file (blankComments source) = .ok chunk' ∧
      chunk'.block.unplaced = chunk.block.unplaced := by
  obtain ⟨ts, own, hblock, hfile, rfl⟩ := parse_eq_ok_iff.1 h
  obtain ⟨span, hown⟩ := hblock.parts
  obtain ⟨b, hreads, hsame⟩ := hblock.reads.uncommented
  obtain ⟨ts', rfl, hts⟩ : ∃ ts', b = .node .block .block ts' ∧
      Tree.unplacedOf ts' = Tree.unplacedOf ts := by
    cases b with
    | leaf t => contradiction
    | node c l ts' =>
      rw [Tree.unplaced, Tree.unplaced, Tree.node.injEq] at hsame
      obtain ⟨rfl, rfl, hts⟩ := hsame
      exact ⟨ts', rfl, hts⟩
  obtain ⟨own', span', hown', hparts, -⟩ := Tree.partsOf_congr hts hown
  refine ⟨chunkOf file (blankComments source) own',
    parse_eq_ok_iff.2 ⟨ts', own', ⟨hreads, span', hown'⟩, ?_, rfl⟩, ?_⟩
  · intro hempty
    have htokens := Tree.tokensOf_unplacedOf ts'
    rw [hts, Tree.tokensOf_unplacedOf, hfile hempty] at htokens
    exact List.map_eq_nil_iff.1 htokens.symm
  · rw [chunkOf, chunkOf, Block.unplaced, Block.unplaced,
      Part.filterMap_congr Part.statement?_unplaced hparts,
      Part.findSome?_congr Part.returned?_unplaced hparts]

/-- **A comment is as good as a space**: with a space for each of its comments a source still has a
chunk. The tokens and the nodes are the same apart from their places, so require calls have the same
paths and forwarding keeps the same defaults. -/
theorem uncommented_of_parse (h : parse file source = .ok chunk) :
    SpaceForComments (tokensRead source) source (blankComments source) ∧
    ∃ chunk', parse file (blankComments source) = .ok chunk' ∧
      (tokensRead (blankComments source)).map Token.unplaced =
        (tokensRead source).map Token.unplaced ∧
      chunk'.block.unplaced = chunk.block.unplaced ∧
      chunk'.block.expressions.map
          (fun e => (RequirePath.ofCall e).mapError RequirePath.Fault.unplaced) =
        chunk.block.expressions.map
          (fun e => (RequirePath.ofCall e).mapError RequirePath.Fault.unplaced) ∧
      (forwardAll chunk'.exports).map Declaration.unplaced =
        (forwardAll chunk.exports).map Declaration.unplaced := by
  obtain ⟨chunk', hparse, hsame⟩ := parse_blankComments h
  obtain ⟨ts, own, hblock, -, -⟩ := parse_eq_ok_iff.1 h
  refine ⟨spaceForComments_blankComments hblock.parseTree, chunk', hparse, ?_⟩
  exact ⟨tokensRead_blankComments hblock.parseTree, hsame, ofCall_expressions_congr hsame,
    forwardAll_exports_congr hsame⟩

/-- A source with comments between the tokens of a require call, in a default and behind a minus
sign. -/
def commentedSource : List Char :=
  ("--[[ a ]]local m = require--b\n(script--[=[ ]] ]=].Parent[--[[]]\"--x\"])\n" ++
    "export type T<U = \x7b--[[--]]number\x7d> = U\nreturn 1 - --[[ c ]]-m -- d").toList

theorem commentedSource_uncommented :
    blankComments commentedSource =
      (" local m = require \n(script .Parent[ \"--x\"])\n" ++
        "export type T<U = \x7b number\x7d> = U\nreturn 1 -  -m  ").toList ∧
    ∃ chunk chunk', parse "m" commentedSource = .ok chunk ∧
      parse "m" (blankComments commentedSource) = .ok chunk' ∧
      chunk'.block.unplaced = chunk.block.unplaced ∧
      (forwardAll chunk'.exports).map Declaration.unplaced =
        (forwardAll chunk.exports).map Declaration.unplaced := by
  have hrun : (parse "m" commentedSource).toOption.any (·.block.last.isSome) = true := by
    unfold commentedSource
    rw [String.toList_append, String.toList_ofList, String.toList_ofList]
    decide +kernel
  obtain ⟨chunk, hparse, -⟩ := exists_ok_of_any hrun
  obtain ⟨-, chunk', hparse', -, hsame, -, hforward⟩ := uncommented_of_parse hparse
  refine ⟨?_, chunk, chunk', hparse, hparse', hsame, hforward⟩
  unfold commentedSource
  rw [String.toList_append, String.toList_append, String.toList_ofList, String.toList_ofList,
    String.toList_ofList, String.toList_ofList]
  decide +kernel

end Chunk

end Luau

end TypedLinks
