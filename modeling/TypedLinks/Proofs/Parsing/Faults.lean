import TypedLinks.Luau.Parse
import TypedLinks.Proofs.Diagnostic.Location
import TypedLinks.Proofs.Parsing.Extent

/-!
# Where the machine fails

A run of the machine that fails has read some trees from the start of the source and cannot go on
behind them. The fault is in the source: at the token that follows, at a character that starts no
token, or at the end.
-/

namespace TypedLinks.Luau

open TypedLinks.Luau.Configuration

/-- The position that a fault is reported at. A machine that cannot go on knows none but the start. -/
def SyntaxFault.position (source : List Char) : SyntaxFault → Position
  | unexpectedEnd => .endOf source
  | unexpectedToken t => t.span.start
  | unexpectedCharacter _ p => p
  | stuck => .start

/-- The problem of a fault names its file and its position, and shows the source. -/
theorem SyntaxFault.location_problem (file : Text) (source : List Char) (e : SyntaxFault) :
    (e.problem file source).source = some (Text.ofChars source) ∧
      ∃ l, (e.problem file source).location = some l ∧ l.file = file ∧
        l.line = (e.position source).line ∧ l.column = (e.position source).column ∧
        l.start = (e.position source).offset := by
  cases e <;> exact ⟨rfl, _, rfl, rfl, rfl, rfl, rfl⟩

/-! ## Places -/

variable {source : List Char} {stack : List (State × Tree)} {i : Place} {c : Configuration}
  {looked : Nat} {e : SyntaxFault}

/-- What follows the gap at a place is in the source. -/
theorem Place.In.behind_gap (hi : i.In source) : (i.position.advance i.gap).In source := by
  obtain ⟨x, hx, hpos⟩ := hi
  refine Position.In.advance ⟨i.rest.drop i.gap.length, ?_⟩ hpos
  rw [List.append_assoc, i.gap_append_rest, ← hx]

theorem Stacked.in_source (h : Stacked source stack i) : i.In source := by
  induction h with
  | nil => exact .start source
  | cons _ read ih => exact ih.reads read

/-! ## Steps that fail -/

theorem Configuration.eq_stuck_of_reduce {r : Reduction} (h : c.reduce r = .failed e) :
    e = .stuck := by
  unfold reduce at h
  dsimp only at h
  split at h
  · contradiction
  · split at h
    · contradiction
    · cases h
      rfl

/-- Where no token is seen, the fault is behind the gap. -/
theorem Configuration.fault_of_unread (h : (unread stack i).step = .failed e) :
    e.position source = i.position.advance i.gap := by
  simp only [step, unread, look, skipTrivia_eq] at h
  split at h
  · contradiction
  · rename_i p char cs hskip
    obtain ⟨rfl, -⟩ := Prod.mk.inj hskip
    split at h
    · contradiction
    · split at h
      · rename_i t rest hscan
        obtain ⟨-, -, -, -, hspan⟩ := lexeme?_of_scan hscan
        cases h
        rw [SyntaxFault.position, hspan]
        rfl
      · cases h
        rfl

/-- Where a token is seen, it is the fault, unless the source ends or the machine is stuck. -/
theorem Configuration.fault_of_seeing {s : Sight} (h : (seeing stack s).step = .failed e) :
    (∃ t, s.token = some t ∧ e = .unexpectedToken t) ∨ s.token = none ∧ e = .unexpectedEnd ∨
      e = .stuck := by
  cases hs : s.token with
  | none =>
    simp only [step, seeing, hs, onEnd] at h
    split at h
    · exact .inr (.inr (eq_stuck_of_reduce h))
    · cases h
      exact .inr (.inl ⟨rfl, rfl⟩)
  | some t =>
    simp only [step, seeing, hs, onToken] at h
    split at h
    · contradiction
    · split at h
      · exact .inr (.inr (eq_stuck_of_reduce h))
      · cases h
        exact .inl ⟨t, rfl, rfl⟩

/-- A step that fails at a place of the source reports a position in the source. -/
theorem Configuration.Stands.fault_in (h : Stands c stack i looked) (hi : i.In source)
    (hstep : c.step = .failed e) : (e.position source).In source := by
  cases h with
  | unread htop =>
    rw [fault_of_unread hstep]
    exact hi.behind_gap
  | @seeing _ _ s hlook =>
    rcases fault_of_seeing hstep with ⟨t, hs, rfl⟩ | ⟨-, rfl⟩ | rfl
    · obtain ⟨token, p, rest⟩ := s
      cases hs
      obtain ⟨-, -, -, hspan, -⟩ := Place.token_of_look hlook
      rw [SyntaxFault.position, hspan]
      exact hi.behind_gap
    · exact Position.in_endOf source
    · exact Position.in_start source

/-! ## Runs that fail -/

/-- A run that fails has read some trees, and its next step fails; or it ran out of steps. -/
theorem Stacked.fails (h : Stacked source stack i) (hstands : Stands c stack i looked) {fuel : Nat}
    (hrun : c.run fuel = .error e) :
    e = .stuck ∨ ∃ stack' i' c' looked', Stacked source stack' i' ∧ Stands c' stack' i' looked' ∧
      c'.step = .failed e := by
  induction fuel generalizing c stack i looked with
  | zero =>
    cases hrun
    exact .inl rfl
  | succ fuel ih =>
    have hmoves := hstands.moves h.top_mem_all
    rw [Configuration.run] at hrun
    cases hstep : c.step with
    | next c' =>
      rw [hstep] at hrun hmoves
      obtain ⟨stack', i', looked', h', hstands'⟩ := h.next hmoves
      exact ih h' hstands' hrun
    | done t =>
      rw [hstep] at hrun
      contradiction
    | failed e' =>
      rw [hstep] at hrun
      cases hrun
      exact .inr ⟨stack, i, c, looked, h, hstands, hstep⟩

/-- The fault of a source without a parse tree is reported at a position in the source. -/
theorem fault_in_of_parseTree (h : parseTree source = .error e) : (e.position source).In source := by
  rcases Stacked.nil.fails (Stands.unread rfl) h with rfl | ⟨_, _, _, _, hstacked, hstands, hstep⟩
  · exact Position.in_start source
  · exact hstands.fault_in hstacked.in_source hstep

end TypedLinks.Luau
