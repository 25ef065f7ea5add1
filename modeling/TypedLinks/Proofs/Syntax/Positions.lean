import TypedLinks.Proofs.Syntax.Problems

/-!
# Lines and columns

The machine counts lines and columns while it reads, character by character; the positions at the end
of a source are computed from its text. Both give the same: the line of a position is the number of
line feeds before its offset, and its column the distance from the last of them.
-/

namespace TypedLinks

open Luau

/-- The start of a location is a position: offset, line and column are its own. -/
structure Location.StartsAt (l : Location) (p : Position) : Prop where
  start_eq : l.start = p.offset
  line_eq : l.line = p.line
  column_eq : l.column = p.column

namespace Luau

/-! ## Positions -/

/-- A position agrees with a source: its offset is one of the source, and its line and its column are
those of that offset. -/
structure Position.Agrees (source : List Char) (p : Position) : Prop where
  offset_le : p.offset ≤ source.length
  line_eq : p.line = 1 + (source.take p.offset).count '\n'
  column_eq : p.column = p.offset - lineStart (source.take p.offset) + 1

/-- Both positions of a span agree with a source. -/
def Span.Agrees (source : List Char) (s : Span) : Prop := s.start.Agrees source ∧ s.stop.Agrees source

variable {source : List Char} {file : Text}

theorem Position.In.agrees {p : Position} (h : p.In source) : p.Agrees source := by
  obtain ⟨x, ⟨y, rfl⟩, rfl⟩ := h
  rw [advance_start]
  constructor
  · rw [endOf, List.length_append]
    exact Nat.le_add_right _ _
  · rw [endOf, List.take_left, Nat.add_comm]
  · rw [endOf, List.take_left]

theorem Span.In.agrees {s : Span} (h : s.In source) : s.Agrees source :=
  ⟨h.1.agrees, h.2.agrees⟩

/-! ## Chunks and problems -/

theorem Chunk.span_in_of_parse {chunk : Chunk} (h : parse file source = .ok chunk) :
    chunk.span.In source := by
  rw [Chunk.span, source_of_parse h]
  exact ⟨Position.in_start source, Position.in_endOf source⟩

/-- The problem of a source starts at a position in it. -/
theorem start_of_problem {problem : Problem} (h : parse file source = .error (.problem problem)) :
    ∃ l p, problem.location = some l ∧ Location.StartsAt l p ∧ p.In source := by
  rcases problem_of_parse h with ⟨e, he, rfl⟩ | ⟨tree, s, htree, hparts, rfl⟩
  · obtain ⟨-, l, hlocation, -, hline, hcolumn, hstart⟩ := e.location_problem file source
    exact ⟨l, e.position source, hlocation, ⟨hstart, hline, hcolumn⟩, fault_in_of_parseTree he⟩
  · obtain ⟨own, hown, hextent⟩ := (wellFormed_of_parseTree htree).run_of_notACall hparts
    exact ⟨_, s.start, rfl, ⟨rfl, rfl, rfl⟩, (span_in_of_run htree hown hextent).1⟩

/-- **Lines and columns agree with offsets**: in the extent of a chunk, in those of all nodes below
it, and at the start of every problem of a source. -/
theorem positions_agree (file : Text) (source : List Char) :
    (∀ chunk, parse file source = .ok chunk →
      chunk.span.Agrees source ∧ ∀ n, chunk.HasNode n → n.span.Agrees source) ∧
    ∀ problem, parse file source = .error (.problem problem) →
      ∃ l p, problem.location = some l ∧ Location.StartsAt l p ∧ p.Agrees source := by
  constructor
  · intro chunk h
    exact ⟨(Chunk.span_in_of_parse h).agrees, fun n hn => (hn.span_in h).agrees⟩
  · intro problem h
    obtain ⟨l, p, hlocation, hstarts, hp⟩ := start_of_problem h
    exact ⟨l, p, hlocation, hstarts, hp.agrees⟩

/-- A source whose string and comments run over several lines, and one that ends inside a call. -/
def tallSource : List Char :=
  "--[[\n]]local s = 'a\\\nb'\r\n-- \nreturn f(\n [=[\n\n]=], s)\n".toList

def openCall : List Char := "return f(\n  'a\\\n', --[[\n]]\n".toList

theorem positions_agree_tallSource :
    (∃ chunk, parse "m" tallSource = .ok chunk ∧ chunk.block.nodes.length = 2 ∧
      chunk.span.Agrees tallSource ∧ ∀ n, chunk.HasNode n → n.span.Agrees tallSource) ∧
    ∃ problem, parse "m" openCall = .error (.problem problem) ∧
      ∃ l p, problem.location = some l ∧ Location.StartsAt l p ∧ p.Agrees openCall := by
  constructor
  · have hrun : (parse "m" tallSource).toOption.any (·.block.nodes.length = 2) = true := by
      unfold tallSource
      rw [String.toList_ofList]
      decide +kernel
    obtain ⟨chunk, hparse, hnodes⟩ := exists_ok_of_any hrun
    exact ⟨chunk, hparse, of_decide_eq_true hnodes,
      (positions_agree "m" tallSource).1 chunk hparse⟩
  · have hfails : (match parse "m" openCall with
        | .error (.problem _) => true
        | _ => false) = true := by
      unfold openCall
      rw [String.toList_ofList]
      decide +kernel
    cases hparse : parse "m" openCall with
    | ok chunk =>
      rw [hparse] at hfails
      contradiction
    | error e =>
      rw [hparse] at hfails
      cases e with
      | problem problem => exact ⟨problem, rfl, (positions_agree "m" openCall).2 problem hparse⟩
      | unbuildable fault => contradiction

end Luau

end TypedLinks
