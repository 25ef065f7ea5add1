import TypedLinks.Proofs.Link.Located
import TypedLinks.Proofs.Syntax.Spans

/-!
# The two forms of a link file

A block is a link file in two ways: it returns a call and holds no other statement, or it returns
the name of the binding, binds that to a call once, and exports types otherwise. The order of the
statements plays no role. Whatever else a chunk is, the problem that it raises names a node of it,
if it returns anything.
-/

namespace TypedLinks

open Luau

/-! ## Lines of a quotation -/

/-- The lines of a text in Unicode: a carriage return and a line feed end a line together, and
nothing stands behind the last line end. -/
def unicodeLines : List Char → List (List Char)
  | [] => []
  | '\r' :: '\n' :: cs => [] :: unicodeLines cs
  | c :: cs =>
    if isLineEnd c then [] :: unicodeLines cs
    else match unicodeLines cs with
      | [] => [[c]]
      | line :: lines => (c :: line) :: lines

/-- A text that is not empty has a first line. -/
theorem head?_unicodeLines {cs : List Char} (h : cs ≠ []) :
    (unicodeLines cs).head? = some (firstLine cs) := by
  induction cs using unicodeLines.induct with
  | case1 => exact absurd rfl h
  | case2 cs => rfl
  | case3 c cs hpair hend =>
    rw [unicodeLines, if_pos hend, firstLine, List.takeWhile_cons]
    · simp [hend]
    · exact hpair
  | case4 c cs hpair hend hlines ih =>
    have hnil : cs = [] := by
      by_contra hcs
      rw [hlines] at ih
      exact absurd (ih hcs) nofun
    subst hnil
    simp [unicodeLines, firstLine, hend]
  | case5 c cs hpair hend line lines hlines ih =>
    have hcs : cs ≠ [] := by
      rintro rfl
      contradiction
    rw [hlines, List.head?_cons] at ih
    rw [unicodeLines, if_neg hend, hlines, Option.some.inj (ih hcs)]
    · simp [firstLine, hend]
    · exact hpair

namespace Link

/-! ## Forms -/

/-- Whether a statement exports a type. -/
def ExportsType (s : Statement) : Prop := ∃ d : TypeDeclaration, s = .typeDeclaration d ∧ d.exported

/-- Whether one of some statements binds an expression to the name of the binding, and every other
one, before it or behind, exports a type. -/
def BindsOnce (ss : List Statement) (e : Expression) : Prop :=
  ∃ before span after, ss = before ++ .localAssignment span [moduleBinding] [e] :: after ∧
    ∀ s ∈ before ++ after, ExportsType s

/-- The forms of a link file with the call that it stands for. -/
inductive Form : Block → Expression → Prop where
  | fresh (span : Span) {call : Expression} (called : call.isCall)
      (unnamed : ∀ s, call ≠ .name s moduleBinding) : Form ⟨[], some ⟨span, [call]⟩⟩ call
  | updated (span nameSpan : Span) {ss : List Statement} {call : Expression} (called : call.isCall)
      (bound : BindsOnce ss call) : Form ⟨ss, some ⟨span, [.name nameSpan moduleBinding]⟩⟩ call

theorem BindsOnce.perm {ss ss' : List Statement} {e : Expression} (h : BindsOnce ss e)
    (hperm : ss'.Perm ss) : BindsOnce ss' e := by
  obtain ⟨before, span, after, rfl, hexported⟩ := h
  obtain ⟨before', after', rfl⟩ := List.append_of_mem (hperm.mem_iff.2 List.mem_append_cons_self)
  have hothers : (before' ++ after').Perm (before ++ after) :=
    List.Perm.cons_inv ((List.perm_middle.symm.trans hperm).trans List.perm_middle)
  exact ⟨before', span, after', rfl, fun s hs => hexported s (hothers.mem_iff.1 hs)⟩

/-- The statements of a link file can stand in any order. -/
theorem Form.perm {ss ss' : List Statement} {last : Option Return} {call : Expression}
    (h : Form ⟨ss, last⟩ call) (hperm : ss'.Perm ss) : Form ⟨ss', last⟩ call := by
  cases h with
  | fresh span hcalled hunnamed =>
    obtain rfl := hperm.eq_nil
    exact .fresh span hcalled hunnamed
  | updated span nameSpan hcalled hbound =>
    exact .updated span nameSpan hcalled (hbound.perm hperm)

theorem bindsOnce_cons_iff {s : Statement} {ss : List Statement} {e : Expression} :
    BindsOnce (s :: ss) e ↔
      (∃ span, s = .localAssignment span [moduleBinding] [e]) ∧ (∀ t ∈ ss, ExportsType t) ∨
        ExportsType s ∧ BindsOnce ss e := by
  constructor
  · rintro ⟨before, span, after, hss, hexported⟩
    rcases List.cons_eq_append_iff.1 hss with ⟨rfl, hcons⟩ | ⟨before', rfl, rfl⟩
    · obtain ⟨rfl, rfl⟩ := List.cons.inj hcons
      exact .inl ⟨⟨span, rfl⟩, hexported⟩
    · obtain ⟨hs, hothers⟩ := List.forall_mem_cons.1 hexported
      exact .inr ⟨hs, before', span, after, rfl, hothers⟩
  · rintro (⟨⟨span, rfl⟩, hexported⟩ | ⟨hs, before, span, after, rfl, hexported⟩)
    · exact ⟨[], span, ss, rfl, hexported⟩
    · exact ⟨s :: before, span, after, rfl, List.forall_mem_cons.2 ⟨hs, hexported⟩⟩

/-! ## Accepted statements -/

theorem isBinding_iff {e : Expression} : isBinding e = true ↔ ∃ s, e = .name s moduleBinding := by
  cases e <;> simp [isBinding]

theorem isSome_exported?_iff {s : Statement} : s.exported?.isSome ↔ ExportsType s := by
  cases s <;> simp [Statement.exported?, ExportsType]

theorem bound?_eq_some_iff {s : Statement} {e : Expression} :
    bound? s = some e ↔ ∃ span, s = .localAssignment span [moduleBinding] [e] := by
  unfold bound?
  split
  · rename_i span names e'
    by_cases hnames : names = [moduleBinding] <;> simp [hnames]
  · rename_i hother
    simp only [reduceCtorEq, false_iff, not_exists]
    exact fun span => hother span _ _

theorem not_exportsType_of_bound? {s : Statement} {e : Expression} (h : bound? s = some e) :
    ¬ExportsType s := by
  obtain ⟨span, rfl⟩ := bound?_eq_some_iff.1 h
  rintro ⟨d, hd, -⟩
  contradiction

section Binding

variable {s : Statement} {ss : List Statement} {e : Expression} {acc : Option Expression}

theorem binding?_cons_of_bound (h : bound? s = some e) :
    binding? none (s :: ss) = binding? (some e) ss :=
  binding?.eq_2 s ss e h

theorem binding?_cons_of_exportsType (h : ExportsType s) :
    binding? acc (s :: ss) = binding? acc ss := by
  rw [binding?.eq_3 s ss acc fun e _ hbound => not_exportsType_of_bound? hbound h,
    if_pos (isSome_exported?_iff.2 h)]

theorem binding?_cons_of_unexpected (hacc : acc = none → bound? s = none) (h : ¬ExportsType s) :
    binding? acc (s :: ss) = .error (.unexpected s) := by
  have hunbound (e : Expression) (hnone : acc = none) : bound? s ≠ some e := by
    rw [hacc hnone]
    nofun
  rw [binding?.eq_3 s ss acc hunbound, if_neg (mt isSome_exported?_iff.1 h)]

/-- Once something is bound, only exported types are accepted. -/
theorem binding?_some_eq_ok_iff :
    binding? (some e) ss = .ok acc ↔ acc = some e ∧ ∀ s ∈ ss, ExportsType s := by
  induction ss with
  | nil => simp [binding?, eq_comm]
  | cons s ss ih =>
    rw [List.forall_mem_cons]
    by_cases hs : ExportsType s
    · rw [binding?_cons_of_exportsType hs, ih, and_iff_right hs]
    · rw [binding?_cons_of_unexpected (by rintro ⟨⟩) hs]
      simp [hs]

/-- Until something is bound, a binding is accepted too. -/
theorem binding?_none_eq_ok_some_iff : binding? none ss = .ok (some e) ↔ BindsOnce ss e := by
  induction ss with
  | nil => simp [binding?, BindsOnce]
  | cons s ss ih =>
    rw [bindsOnce_cons_iff, ← bound?_eq_some_iff]
    cases hbound : bound? s with
    | some e' =>
      have hs := not_exportsType_of_bound? hbound
      rw [binding?_cons_of_bound hbound, binding?_some_eq_ok_iff]
      simp [hs, eq_comm]
    | none =>
      by_cases hs : ExportsType s
      · rw [binding?_cons_of_exportsType hs, ih]
        simp [hs]
      · rw [binding?_cons_of_unexpected (fun _ => hbound) hs]
        simp [hs]

end Binding

/-! ## Accepted blocks -/

section Blocks

variable {b : Block} {e call : Expression} {fault : ShapeFault}

theorem returned_eq_ok_iff : returned b = .ok e ↔ ∃ span, b.last = some ⟨span, [e]⟩ := by
  unfold returned
  split
  · rename_i hlast
    simp [hlast]
  · rename_i last hlast
    obtain ⟨span, es⟩ := last
    rw [hlast]
    dsimp only
    split
    · simp
    · rename_i hother
      simp only [reduceCtorEq, Option.some.injEq, Return.mk.injEq, false_iff, not_exists, not_and]
      exact fun _ _ => hother e

theorem calledBy_eq_ok_iff : calledBy b e = .ok call ↔
    if isBinding e then BindsOnce b.statements call else b.statements = [] ∧ call = e := by
  unfold calledBy
  split
  · rw [← binding?_none_eq_ok_some_iff]
    split <;> simp [*]
  · cases b.statements <;> simp [eq_comm]

theorem requireCall_eq_ok_iff_called : requireCall b = .ok call ↔
    ∃ e, returned b = .ok e ∧ calledBy b e = .ok call ∧ call.isCall := by
  unfold requireCall
  constructor
  · intro h
    cases hreturned : returned b with
    | error fault =>
      rw [hreturned] at h
      contradiction
    | ok e =>
      cases hcalled : calledBy b e with
      | error fault =>
        simp only [bind, Except.bind, hreturned, hcalled] at h
        contradiction
      | ok e' =>
        simp only [bind, Except.bind, hreturned, hcalled] at h
        split at h <;> cases h
        rename_i hcall
        exact ⟨e, rfl, hcalled, hcall⟩
  · rintro ⟨e, hreturned, hcalled, hcall⟩
    simp only [bind, Except.bind, hreturned, hcalled]
    exact if_pos hcall

/-- The call of a block is found exactly if the block has a form of a link file. -/
theorem requireCall_eq_ok_iff : requireCall b = .ok call ↔ Form b call := by
  obtain ⟨ss, last⟩ := b
  rw [requireCall_eq_ok_iff_called]
  constructor
  · rintro ⟨e, hreturned, hcalled, hcall⟩
    obtain ⟨span, rfl⟩ := returned_eq_ok_iff.1 hreturned
    rw [calledBy_eq_ok_iff] at hcalled
    split at hcalled
    · rename_i hbinding
      obtain ⟨s, rfl⟩ := isBinding_iff.1 hbinding
      exact .updated span s hcall hcalled
    · rename_i hbinding
      obtain ⟨rfl, rfl⟩ := hcalled
      exact .fresh span hcall (not_exists.1 (mt isBinding_iff.2 hbinding))
  · intro h
    cases h with
    | fresh span hcall hunnamed =>
      refine ⟨call, rfl, ?_, hcall⟩
      rw [calledBy_eq_ok_iff, if_neg (mt isBinding_iff.1 (not_exists.2 hunnamed))]
      exact ⟨rfl, rfl⟩
    | updated span nameSpan hcall hbound =>
      refine ⟨.name nameSpan moduleBinding, rfl, ?_, hcall⟩
      rw [calledBy_eq_ok_iff, if_pos (isBinding_iff.2 ⟨nameSpan, rfl⟩)]
      exact hbound

theorem cases_of_requireCall_fault (h : requireCall b = .error fault) :
    returned b = .error fault ∨ (∃ e, calledBy b e = .error fault) ∨ ∃ e, fault = .notACall e := by
  unfold requireCall at h
  cases hreturned : returned b with
  | error fault' =>
    rw [hreturned] at h
    exact .inl h
  | ok e =>
    cases hcalled : calledBy b e with
    | error fault' =>
      simp only [bind, Except.bind, hreturned, hcalled] at h
      exact .inr (.inl ⟨e, hcalled.trans h⟩)
    | ok e' =>
      simp only [bind, Except.bind, hreturned, hcalled] at h
      split at h <;> cases h
      exact .inr (.inr ⟨e', rfl⟩)

theorem exists_node_of_returned_fault (h : returned b = .error fault) (hlast : b.last ≠ none) :
    ∃ n, fault.node? = some n := by
  unfold returned at h
  split at h
  · contradiction
  · split at h <;> cases h
    exact ⟨_, rfl⟩

theorem exists_node_of_calledBy_fault (h : calledBy b e = .error fault) :
    ∃ n, fault.node? = some n := by
  unfold calledBy at h
  split at h
  · split at h
    · contradiction
    · cases h
      exact ⟨_, rfl⟩
    · rename_i hbinding
      obtain ⟨s, -, hunexpected⟩ := unexpected_of_binding? hbinding
      cases h
      rw [hunexpected]
      exact ⟨_, rfl⟩
  · split at h <;> cases h
    exact ⟨_, rfl⟩

/-- A block that returns something raises a problem about one of its nodes. -/
theorem exists_node_of_fault (h : requireCall b = .error fault) (hlast : b.last ≠ none) :
    ∃ n, fault.node? = some n := by
  rcases cases_of_requireCall_fault h with hreturned | ⟨e, hcalled⟩ | ⟨e, rfl⟩
  · exact exists_node_of_returned_fault hreturned hlast
  · exact exists_node_of_calledBy_fault hcalled
  · exact ⟨_, rfl⟩

end Blocks

/-! ## Link files -/

/-- The text of a node of a chunk has a first line. -/
theorem head?_unicodeLines_text {file : Text} {source : List Char} {chunk : Chunk}
    (h : parse file source = .ok chunk) {n : SyntaxNode} (hn : chunk.HasNode n) :
    (unicodeLines (n.span.text chunk.source)).head? =
      some (firstLine (n.span.text chunk.source)) := by
  have hplaced := hn.isPlaced h
  have hlength : (n.span.text chunk.source).length = n.span.stop.offset - n.span.start.offset := by
    rw [source_of_parse h, Span.text, List.length_take, List.length_drop]
    have := hplaced.bounded
    omega
  refine head?_unicodeLines (List.ne_nil_of_length_pos ?_)
  rw [hlength]
  exact Nat.sub_pos_of_lt hplaced.nonempty

/-- A chunk has a require call exactly if it is a link file of one of the two forms, in whatever
order its statements stand. Otherwise the problem is that of a malformed link; if the chunk returns
something, it is located at a node of the chunk, inside the chunk, and a statement that is quoted
has a first line. -/
theorem link_forms {file : Text} {source : List Char} {chunk : Chunk}
    (h : parse file source = .ok chunk) :
    (∀ call, requireCall chunk.block = .ok call ↔ Form chunk.block call) ∧
    (∀ fault, requireCall chunk.block = .error fault →
      (fault.problem chunk).kind = .malformedLink ∧
      (chunk.block.last ≠ none → ∃ n, chunk.HasNode n ∧ n.span.Inside chunk.span ∧
        (fault.problem chunk).location = some (.ofSpan file n.span)) ∧
      ∀ s, fault = .unexpected s → (unicodeLines (s.span.text source)).head? =
        some (firstLine (s.span.text source))) ∧
    ∀ ss, ss.Perm chunk.block.statements → ∀ call,
      requireCall ⟨ss, chunk.block.last⟩ = .ok call ↔ requireCall chunk.block = .ok call := by
  refine ⟨fun call => requireCall_eq_ok_iff, fun fault hfault => ⟨?_, fun hlast => ?_, ?_⟩,
    fun ss hperm call => ?_⟩
  · cases fault <;> rfl
  · obtain ⟨n, hn⟩ := exists_node_of_fault hfault hlast
    have hnode := hasNode_of_requireCall_fault hfault hn
    obtain ⟨-, hlocation⟩ := fault.location_problem chunk
    have hplaced := hnode.isPlaced h
    have hfile : chunk.file = file := (hnode.isIn h).1
    refine ⟨n, hnode, ⟨Nat.zero_le _, ?_⟩, ?_⟩
    · rw [Chunk.span, source_of_parse h]
      exact hplaced.bounded
    · rw [hlocation, hn, Option.map_some, hfile]
  · rintro s rfl
    have hline := head?_unicodeLines_text h (hasNode_of_requireCall_fault hfault rfl)
    rwa [source_of_parse h] at hline
  · rw [requireCall_eq_ok_iff, requireCall_eq_ok_iff]
    exact ⟨fun h => h.perm hperm.symm, fun h => h.perm hperm⟩

/-- An updated link file whose binding stands between two exported types. -/
def mixedSource : List Char :=
  "export type A = REQUIRED_MODULE.A\nlocal REQUIRED_MODULE = require(script.a)
export type B = REQUIRED_MODULE.B\nreturn REQUIRED_MODULE\n".toList

theorem link_forms_mixed : ∃ chunk, parse "l" mixedSource = .ok chunk ∧
    (chunk.block.statements.length = 3 ∧ (requireCall chunk.block).toOption.isSome) ∧
    (∀ call, requireCall chunk.block = .ok call ↔ Form chunk.block call) ∧
    (∀ fault, requireCall chunk.block = .error fault →
      (fault.problem chunk).kind = .malformedLink ∧
      (chunk.block.last ≠ none → ∃ n, chunk.HasNode n ∧ n.span.Inside chunk.span ∧
        (fault.problem chunk).location = some (.ofSpan "l" n.span)) ∧
      ∀ s, fault = .unexpected s → (unicodeLines (s.span.text mixedSource)).head? =
        some (firstLine (s.span.text mixedSource))) ∧
    ∀ ss, ss.Perm chunk.block.statements → ∀ call,
      requireCall ⟨ss, chunk.block.last⟩ = .ok call ↔ requireCall chunk.block = .ok call := by
  have hrun : (parse "l" mixedSource).toOption.any (fun chunk =>
      chunk.block.statements.length = 3 ∧ (requireCall chunk.block).toOption.isSome) = true := by
    unfold mixedSource
    rw [String.toList_ofList]
    decide +kernel
  obtain ⟨chunk, hparse, hmixed⟩ := exists_ok_of_any hrun
  exact ⟨chunk, hparse, of_decide_eq_true hmixed, link_forms hparse⟩

end Link

end TypedLinks
