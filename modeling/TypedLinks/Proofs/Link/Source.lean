import TypedLinks.Link.Shape
import TypedLinks.Proofs.Parsing.Carry
import TypedLinks.Proofs.Syntax.Calls
import TypedLinks.Proofs.Syntax.Blocks

/-!
# The require call of a link file

In either form of a link file the require call stands behind `return` or behind the equals sign of a
local assignment. From both places the machine reads it in the same way: behind the name `require` it
is in one and the same state.
-/

namespace TypedLinks.Luau

open Grammar Lexeme Link

/-! ## States around the call -/

namespace State

/-- The state behind `return`. -/
def returning : State := walk [.token .kwReturn]

/-- The state behind the equals sign of a local assignment. -/
def assigning : State := walk [.token .kwLocal, .category .bindingList, .token .equals]

/-- The state behind a name that starts an expression. -/
def named : State := walk [.token .kwReturn, .token .name]

/-- The state behind an expression that may be called. -/
def callable : State := walk [.token .kwReturn, .category .suffixedExpression]

theorem returning_checked : ∀ q ∈ afterToken .kwReturn, q = returning := by
  decide

theorem assigning_checked :
    ∀ q ∈ afterToken .equals, ∀ i ∈ q.items, i.passed = 3 →
      i.body = [.token .kwLocal, .category .bindingList, .token .equals, .category .expressionList] →
      q = assigning := by
  decide

theorem callable_checked :
    ∀ q ∈ [returning, assigning], q.shift? .name = some named ∧
      q.goto? .suffixedExpression = some callable := by
  decide

theorem closing_checked :
    ∀ q ∈ afterToken .rightParen, ∀ r ∈ q.reductions, r.construct = .parenthesizedArguments →
      q.reducesTo (some .kwExport) .callArguments .parenthesizedArguments r.size = true := by
  decide

end State

/-! ## Reading the call -/

/-- Where the require call of a source stands, which is followed by `v`: behind the name `require`
the machine reads the text `b` up to the closing parenthesis. -/
structure ReadsCall (source : List Char) (call : Expression) (b v : List Char) : Prop where
  text : call.span.text source = "require".toList ++ b
  rest : source.drop call.span.stop.offset = v
  endsName : EndsName (b ++ v)
  last : b.getLast? = some ')'
  reads : ∃ name lp es rp p q k p' q' s,
    name.terminal = .name ∧ name.text = "require".toList ∧ lp.terminal = .leftParen ∧
      rp.terminal = .rightParen ∧
      (Tree.callTree name (.leaf lp :: (es ++ [.leaf rp]))).parts = .ok ([.expression call], s) ∧
      Reads .callable ⟨.named, p, b ++ v⟩ (.leaf lp :: es) q k ∧ k.look = some ⟨some rp, p', v⟩ ∧
      q.shift? .rightParen = some q' ∧
      q'.reducesTo (some .kwExport) .callArguments .parenthesizedArguments (es.length + 2) = true

/-- Where a name may stand, the word `require` is a name. -/
theorem terminal_eq_name {t : Token} {rest : List Char} (htext : t.text = "require".toList)
    (hterminal : t.terminal ∈ [Terminal.name, .kwType, .kwExport, .kwContinue])
    (hlexeme : t.terminal.lexeme? (t.text ++ rest) = some t.text.length) : t.terminal = .name := by
  have hkeyword {s : List Char} (hs : t.terminal.spelling? = some s)
      (hne : "require".toList ≠ s) : t.terminal = .name :=
    absurd (htext.symm.trans (Terminal.text_of_spelling? hs hlexeme)) hne
  simp only [List.mem_cons, List.not_mem_nil, or_false] at hterminal
  rcases hterminal with ht | ht | ht | ht
  · exact ht
  · exact hkeyword (by rw [ht]; rfl) (by decide)
  · exact hkeyword (by rw [ht]; rfl) (by decide)
  · exact hkeyword (by rw [ht]; rfl) (by decide)

/-- The callee behind `return` or behind an equals sign is read as a name. -/
theorem callee_of_reads {q q' : State} {i j : Place} {name : Token}
    (hbase : q = .returning ∨ q = .assigning)
    (h : Reads q i [(Tree.node .nameExpression .name [.leaf name]).wrap
      (spliced [.primaryExpression, .suffixedExpression])] q' j)
    (htext : name.text = "require".toList)
    (hterminal : name.terminal ∈ [Terminal.name, .kwType, .kwExport, .kwContinue]) :
    q' = .callable ∧ name.terminal = .name ∧ ∃ p rest, j = ⟨.named, p, rest⟩ ∧
      i.rest = i.gap ++ (name.text ++ rest) ∧ EndsName rest := by
  have hbase' : q ∈ [State.returning, .assigning] := by simpa using hbase
  have hcallable : q' = .callable := by
    have hgoto : q.goto? .suffixedExpression = some q' := h.move
    rw [(State.callable_checked q hbase').2] at hgoto
    exact (Option.some.inj hgoto).symm
  obtain ⟨q₁, hname⟩ := h.unwrap
  obtain ⟨q₂, -, -, hleaf, -⟩ := hname.node_inv
  obtain ⟨p, rest, hlook, hshift, rfl⟩ := hleaf.leaf_inv
  obtain ⟨hrest, -, -⟩ := Place.scan_of_look hlook
  obtain ⟨-, -, hlexeme, -, -⟩ := Place.token_of_look hlook
  have hnameTerminal := terminal_eq_name htext hterminal hlexeme
  rw [hnameTerminal, (State.callable_checked q hbase').1] at hshift
  rw [hnameTerminal] at hlexeme
  cases hshift
  exact ⟨hcallable, hnameTerminal, p, rest, rfl, hrest, endsName_of_lexeme? hlexeme⟩

/-- The require call behind `return` or behind an equals sign. -/
theorem readsCall_of_reads {source : List Char} {q q' : State} {i j : Place} {E : Tree}
    {call : Expression} {path : RequirePath} {span : Option Span} (hq : q ∈ State.all)
    (hbase : q = .returning ∨ q = .assigning) (hi : i.In source) (h : Reads q i [E] q' j)
    (hE : E.symbol = .category .expressionList) (hparts : E.parts = .ok ([.expressions [call]], span))
    (hpath : RequirePath.ofCall call = .ok path) : ∃ b v, ReadsCall source call b v := by
  have hwell := h.wellFormed hq E List.mem_cons_self
  obtain ⟨l, X, rfl, hX, hwellX, hpartsX⟩ := Tree.expressionList_cases hwell hE hparts
  obtain ⟨q₁, -, -, hreadX, -⟩ := h.node_inv
  obtain ⟨name, lp, es, rp, chain, rfl, hname, hterminal, hlp, hrp, hcall⟩ :=
    Tree.call_cases hwellX (by rw [hX]; rfl) hpartsX hpath
  obtain ⟨q₂, hread⟩ := hreadX.unwrap
  obtain ⟨q₃, s₃, r₃, hchildren, -⟩ := hread.node_inv
  obtain ⟨q₄, k₄, hcallee, harguments⟩ := hchildren.uncons
  obtain ⟨q₅, s₅, r₅, hwords, -, hr₅, -, hconstruct, hsize, -⟩ := harguments.node_inv
  rw [← List.cons_append] at hwords
  obtain ⟨q₆, k, hinner, hlast⟩ := hwords.split
  obtain ⟨p', v, hklook, hshift, rfl⟩ := hlast.leaf_inv
  obtain ⟨rfl, hnameTerminal, p₄, rest, rfl, hrest, hendsName⟩ :=
    callee_of_reads hbase hcallee hname hterminal
  obtain ⟨hkrest, -, -⟩ := Place.scan_of_look hklook
  obtain ⟨-, -, hclose, -, -⟩ := Place.token_of_look hklook
  have hrpText : rp.text = [')'] := Terminal.text_of_spelling? (by rw [hrp]; rfl) hclose
  obtain ⟨a, ha, -⟩ := hinner.consumed
  simp only at ha
  have hb : rest = (a ++ (k.gap ++ [')'])) ++ v := by
    rw [ha, hkrest, hrpText]
    simp
  generalize hbdef : a ++ (k.gap ++ [')']) = b at hb
  subst hb
  obtain ⟨_, heq, -, hcovers⟩ := (hread.wellFormed hq _ List.mem_cons_self).fits hcall
  cases heq
  obtain ⟨htext, hstop⟩ := hread.text hi
    (Tree.partsOf_singleton.2 ((hcovers _ rfl : span = some call.span) ▸ hcall)) rfl
    (b := name.text ++ b) (by rw [hrest, List.append_assoc])
  refine ⟨b, v, ?_, ?_, ?_, ?_, name, lp, es, rp, p₄, q₆, k, p', q₅, span, hnameTerminal, hname,
    hlp, hrp, hcall, hinner, hklook, by rw [← hrp]; exact hshift, ?_⟩
  · rw [htext, hname]
  · rw [hstop]
    exact (hi.reads hread).drop_offset
  · exact hendsName
  · rw [← hbdef, ← List.append_assoc]
    exact List.getLast?_concat
  · have hmem := State.mem_afterToken hshift
    rw [hrp] at hmem
    have hreduces := State.closing_checked q₅ hmem r₅ (List.mem_of_find?_eq_some hr₅) hconstruct
    rw [hsize] at hreduces
    simpa using hreduces

/-! ## The forms of a link file -/

theorem mem_of_binding? {ss : List Statement} {acc : Option Expression} {e : Expression}
    (h : binding? acc ss = .ok (some e)) : acc = some e ∨ ∃ s ∈ ss, bound? s = some e := by
  induction ss generalizing acc with
  | nil =>
    cases h
    exact .inl rfl
  | cons s ss ih =>
    unfold binding? at h
    split at h
    · rename_i e' hs
      rcases ih h with heq | ⟨s', hs', hbound⟩
      · cases heq
        exact .inr ⟨s, List.mem_cons_self, hs⟩
      · exact .inr ⟨s', List.mem_cons_of_mem _ hs', hbound⟩
    · split at h
      · rcases ih h with heq | ⟨s', hs', hbound⟩
        · exact .inl heq
        · exact .inr ⟨s', List.mem_cons_of_mem _ hs', hbound⟩
      · contradiction

/-- The require call of a block is what it returns, or what a local assignment of it binds. -/
theorem requireCall_cases {b : Block} {call : Expression} (h : requireCall b = .ok call) :
    ∃ r, b.last = some r ∧ (b.statements = [] ∧ r.expressions = [call] ∨
      ∃ s names, .localAssignment s names [call] ∈ b.statements) := by
  unfold requireCall returned at h
  cases hlast : b.last with
  | none =>
    rw [hlast] at h
    contradiction
  | some r =>
    refine ⟨r, rfl, ?_⟩
    simp only [hlast] at h
    split at h
    · rename_i e he
      simp only [bind, Except.bind, calledBy] at h
      split at h
      · contradiction
      · rename_i e' hcalled
        obtain rfl : e' = call := by
          split at h
          · exact Except.ok.inj h
          · contradiction
        split at hcalled
        · split at hcalled
          · rename_i bound hbinding
            cases hcalled
            rcases mem_of_binding? hbinding with heq | ⟨s, hs, hbound⟩
            · contradiction
            · unfold bound? at hbound
              split at hbound
              · split at hbound
                · cases hbound
                  exact .inr ⟨_, _, hs⟩
                · contradiction
              · contradiction
          · contradiction
          · contradiction
        · split at hcalled
          · rename_i hnil
            cases hcalled
            exact .inl ⟨hnil, he⟩
          · contradiction
    · contradiction

/-- The expressions of a local assignment are read behind its equals sign. -/
theorem reads_assigned {q q' : State} {i j : Place} {first : List Tree} {E : Tree}
    (h : Reads q i [.node .statement .localAssignment (first ++ [E])] q' j) (hq : q ∈ State.all)
    (hfirst : first.map Tree.symbol = [.token .kwLocal, .category .bindingList, .token .equals])
    (hE : E.symbol = .category .expressionList) :
    ∃ i₁ q₁ j₁, Reads q i first .assigning i₁ ∧ Reads .assigning i₁ [E] q₁ j₁ := by
  obtain ⟨q₁, i₁, q₂, hfront, hlast, item, hitem, hpassed, hbody⟩ := h.item_between hq (by
    rintro rfl
    contradiction)
  rw [List.map_append, hfirst, List.map_singleton, hE] at hbody
  obtain ⟨kw, _, rfl, -, hrest⟩ := Tree.map_symbol_eq_token_cons.1 hfirst
  obtain ⟨B, _, rfl, -, hrest⟩ := Tree.map_symbol_eq_category_cons.1 hrest
  obtain ⟨e, rfl, he⟩ := List.map_eq_singleton_iff.1 hrest
  have hequals : q₁ ∈ afterToken .equals := by
    obtain ⟨_, _, -, hrest⟩ := hfront.uncons
    obtain ⟨_, _, -, hrest⟩ := hrest.uncons
    have hmove := hrest.move
    rw [he] at hmove
    exact State.mem_afterToken hmove
  obtain rfl := State.assigning_checked q₁ hequals item hitem hpassed hbody
  exact ⟨i₁, q₂, j, hfront, hlast⟩

/-- The machine reads the require call of a link file, which returns something. -/
theorem ReadsBlock.readsCall {file : Text} {source : List Char} {ts : List Tree} {own : List Part}
    (h : ReadsBlock source ts own) {call : Expression} {path : RequirePath}
    (hcall : requireCall (chunkOf file source own).block = .ok call)
    (hpath : RequirePath.ofCall call = .ok path) :
    (∃ r, own.findSome? Part.returned? = some r) ∧ ∃ b v, ReadsCall source call b v := by
  obtain ⟨r, hr, hform⟩ := requireCall_cases hcall
  have hr : own.findSome? Part.returned? = some r := hr
  refine ⟨⟨r, hr⟩, ?_⟩
  obtain ⟨span, hown⟩ := h.parts
  obtain ⟨q, j, hreads, -⟩ := h.reads_to_end
  have hin := Place.In.start source
  rcases hform with ⟨-, hexpressions⟩ | ⟨s, names, hs⟩
  · obtain ⟨first, L, _, _, rfl, -, -, hL, hparts, -⟩ := Tree.return_of_block h.wellFormed hown hr
    obtain ⟨q₁, i, hfirst, hlast⟩ := hreads.split
    obtain ⟨kw, E, semi, s, rfl, hkw, hE, hpartsE⟩ := Tree.return_cases
      (h.wellFormed.children L (by simp)) hL hparts (by rw [hexpressions]; simp)
    rw [hexpressions] at hpartsE
    obtain ⟨q₂, -, -, hchildren, -⟩ := hlast.node_inv
    obtain ⟨q₃, k, hkwRead, hrest⟩ := hchildren.uncons
    obtain ⟨q₄, k', hERead, -⟩ := hrest.uncons
    have hq₁ := hfirst.mem_all State.initial_mem_all
    obtain rfl : q₃ = .returning := by
      have hshift : q₁.shift? kw.terminal = some q₃ := hkwRead.move
      rw [hkw] at hshift
      exact State.returning_checked q₃ (State.mem_afterToken hshift)
    exact readsCall_of_reads (hkwRead.mem_all hq₁) (.inl rfl)
      ((hin.reads hfirst).reads hkwRead) hERead hE hpartsE hpath
  · have hs' : Part.statement (.localAssignment s names [call]) ∈ own := by
      obtain ⟨p, hp, hps⟩ := List.mem_filterMap.1 hs
      rwa [Tree.statement?_eq_some hps] at hp
    obtain ⟨t, ht, T, s', hwithin, hwell, hT, hparts⟩ :=
      Tree.statement_of_block h.wellFormed hown hr hs'
    obtain ⟨q₁, i, q₂, j, hq₁, hi, hread⟩ := hreads.within State.initial_mem_all hin ht hwithin
    obtain ⟨first, E, s'', rfl, hfirst, hE, hpartsE⟩ := Tree.localAssignment_cases hwell hT hparts
    obtain ⟨i₁, q₃, j₁, hfront, hERead⟩ := reads_assigned hread hq₁ hfirst hE
    exact readsCall_of_reads (hfront.mem_all hq₁) (.inr rfl) (hi.reads hfront) hERead hE hpartsE hpath

end TypedLinks.Luau
