import TypedLinks.Proofs.Lexing.Literals
import TypedLinks.Proofs.Parsing.Viable

/-!
# Strings that are called unterminated

A syntax error at a place where a string opens is called an unterminated string. If the string is
not closed that is so; if it is closed, it was read, and it is a token that cannot follow. A bracket
that is read where no string is looked for is never such a token, even if it opens a closed string.
-/

namespace TypedLinks.Luau

open Lexeme TypedLinks.Luau.Configuration

/-! ## Closed strings -/

theorem Terminal.eq_of_isFlat_eq_false {t : Terminal} (h : t.isFlat = false) :
    t = .interpolated ∨ t = .quoted :=
  t.isFlat_cases.resolve_left (Bool.eq_false_iff.1 h)

/-- Whether a string literal of any kind starts here and is closed. -/
def startsString (cs : List Char) : Bool :=
  (Terminal.quoted.lexeme? cs).isSome || (Terminal.interpolated.lexeme? cs).isSome

theorem startsString_iff {cs : List Char} :
    startsString cs = true ↔
      ∃ (t : Terminal) (n : Nat), t.isFlat = false ∧ t.lexeme? cs = some n := by
  rw [startsString, Bool.or_eq_true, Option.isSome_iff_exists, Option.isSome_iff_exists]
  constructor
  · rintro (⟨n, hn⟩ | ⟨n, hn⟩)
    · exact ⟨.quoted, n, rfl, hn⟩
    · exact ⟨.interpolated, n, rfl, hn⟩
  · rintro ⟨t, n, hflat, hn⟩
    rcases Terminal.eq_of_isFlat_eq_false hflat with rfl | rfl
    · exact .inr ⟨n, hn⟩
    · exact .inl ⟨n, hn⟩

theorem opensString_of_longBracket? {cs : List Char} {n : Nat} (h : longBracket? cs = some n) :
    opensString cs = true := by
  obtain ⟨level, hlevel, -⟩ := Option.bind_eq_some_iff.1 ((longBracket?_eq _).symm.trans h)
  unfold opensString
  split
  case h_4 =>
    rw [hlevel]
    rfl
  all_goals rfl

/-- A closed string opens. -/
theorem opensString_of_startsString {cs : List Char} (h : startsString cs = true) :
    opensString cs = true := by
  obtain ⟨t, n, hflat, hn⟩ := startsString_iff.1 h
  rcases Terminal.eq_of_isFlat_eq_false hflat with rfl | rfl
  · obtain ⟨rest, k, rfl, -⟩ := interpolated?_cases (show interpolated? cs = some n from hn)
    rfl
  · rcases string?_cases (show string? cs = some n from hn) with
      ⟨q, rest, k, rfl | rfl, rfl, -, -⟩ | hlong
    · rfl
    · rfl
    · exact opensString_of_longBracket? hlong

/-- Where a closed string starts, any other lexeme is a bracket that is shorter. -/
theorem bracket_of_startsString {t u : Terminal} {cs : List Char} {n k : Nat}
    (ht : t.isFlat = false) (hn : t.lexeme? cs = some n) (hu : u.isFlat = true)
    (hk : u.lexeme? cs = some k) : t = .quoted ∧ u = .leftBracket ∧ k < n := by
  obtain ⟨c, cs, rfl⟩ : ∃ c cs', cs = c :: cs' := by
    have hbounds := Terminal.lexeme?_bounds hn
    exact List.exists_cons_of_ne_nil (List.length_pos_iff.1 (by omega))
  obtain ⟨hdouble, hsingle, hback⟩ := not_quote_of_lexeme? hu hk
  rcases Terminal.eq_of_isFlat_eq_false ht with rfl | rfl
  · exact absurd (head_of_interpolated hn) hback
  · obtain rfl := ((head_of_quoted hn).resolve_left hdouble).resolve_left hsingle
    obtain ⟨rfl, rfl⟩ := bracket_of_lexeme? (t := .leftBracket) (by decide) hu hk
    change string? ('[' :: cs) = some n at hn
    rw [string?_of_ne hdouble hsingle, longBracket?_eq] at hn
    obtain ⟨level, -, hclose⟩ := Option.bind_eq_some_iff.1 hn
    obtain ⟨m, -, rfl⟩ := Option.map_eq_some_iff.1 hclose
    exact ⟨rfl, rfl, by omega⟩

/-- Where a closed string starts, it is scanned, unless a bracket is looked for and no string is. -/
theorem string_of_scan {accepted : Terminal → Bool} {p : Position} {cs rest : List Char} {t : Token}
    (hstring : startsString cs = true) (h : scan accepted p cs = some (t, rest)) :
    t.terminal.isFlat = false ∨ t.terminal = .leftBracket ∧ accepted .quoted = false := by
  obtain ⟨s, n, hs, hn⟩ := startsString_iff.1 hstring
  obtain ⟨k, hlongest, -⟩ := scan_eq_some_iff.1 h
  obtain ⟨-, hk⟩ := mem_candidates.1 (mem_of_longest hlongest)
  refine or_iff_not_imp_left.2 fun hflat => ?_
  obtain ⟨rfl, hbracket, hlt⟩ := bracket_of_startsString hs hn (Bool.not_eq_false _ ▸ hflat) hk
  refine ⟨hbracket, ?_⟩
  by_contra hacc
  have hle := le_of_longest hlongest (mem_candidates.2 ⟨Bool.not_eq_false _ ▸ hacc, hn⟩)
  omega

/-! ## Brackets where no string is looked for -/

namespace State

/-- Whether a state looks for a bracket and not for a string. -/
def indexes (q : State) : Bool := q.accepts .leftBracket && !q.accepts .quoted

set_option maxRecDepth 100000 in
theorem indexing_checked :
    (all.all fun q => !q.indexes || (q.reduction? (some .leftBracket)).all fun r =>
      (afterCategory r.head).all (·.indexes)) = true := by
  decide +kernel

/-- After a reduction before a bracket the bracket is still looked for. -/
theorem indexes_of_goto? {q q₀ q' : State} (hq : q ∈ all) (h : q.indexes = true) {r : Reduction}
    (hr : q.reduction? (some .leftBracket) = some r) (hgoto : q₀.goto? r.head = some q') :
    q'.indexes = true := by
  have hcheck := List.all_eq_true.1 indexing_checked q hq
  rw [h, hr] at hcheck
  exact List.all_eq_true.1 hcheck q' (move?_eq_some (s := .category r.head) hgoto).1

end State

/-- A bracket that comes next was read where no string is looked for, and a state looks for it as
well. -/
def Indexing (q : State) (i : Place) : Prop :=
  i.scanner.indexes = true → ∀ s, i.look = some s → s.terminal = some .leftBracket →
    q.indexes = true

theorem Reads.indexing {q q' : State} {i j : Place} {ts : List Tree} (h : Reads q i ts q' j)
    (hq : q ∈ State.all) (hfirst : Indexing q i) : Indexing q' j := by
  induction h with
  | nil => exact hfirst
  | leaf _ hshift _ ih =>
    exact ih (State.mem_all_of_move? (s := .token _) hshift) fun hscanner _ _ _ => hscanner
  | node hcs hlook hr _ _ hgoto _ ihcs ih =>
    refine ih (State.mem_all_of_move? (s := .category _) hgoto) fun hscanner s hs hbracket => ?_
    obtain rfl := Option.some.inj (hlook.symm.trans hs)
    rw [hbracket] at hr
    have hindexes := ihcs hq hfirst hscanner _ hlook hbracket
    exact State.indexes_of_goto? (hcs.mem_all hq) hindexes hr hgoto

/-! ## Faults at strings -/

section Faults

variable {source : List Char} {stack : List (State × Tree)} {i : Place} {e : SyntaxFault}

theorem State.isSome_of_accepts {q : State} {t : Terminal} (h : q.accepts t = true)
    (hshift : q.shift? t = none) : q.reduction? (some t) ≠ none := by
  rw [State.accepts, hshift, Option.isSome_none, Bool.false_or] at h
  exact Option.isSome_iff_ne_none.1 h

/-- A fault where a closed string starts is that string. -/
theorem Stacked.fault_of_startsString (h : Stacked source stack i) (hfails : Fails (top stack) i e)
    {cs : List Char} (hrest : i.rest = i.gap ++ cs) (hstring : startsString cs = true) :
    ∃ t, e = .unexpectedToken t ∧ t.terminal.isFlat = false := by
  obtain ⟨s, n, hs, hn⟩ := startsString_iff.1 hstring
  cases hfails with
  | @foreign t cs' rest hlook hbehind hscan =>
    obtain rfl : cs = cs' := List.append_cancel_left (hrest.symm.trans hbehind)
    exact ⟨t, rfl, (string_of_scan hstring hscan).resolve_right nofun⟩
  | @character char cs' hlook hbehind hscan =>
    obtain rfl : cs = char :: cs' := List.append_cancel_left (hrest.symm.trans hbehind)
    have hcandidate : (s, n) ∈ candidates (fun _ => true) (char :: cs') :=
      mem_candidates.2 ⟨rfl, hn⟩
    exact absurd (Option.map_eq_none_iff.1 hscan) (longest_ne_none (List.ne_nil_of_mem hcandidate))
  | @token t p rest hlook hshift hreduction =>
    obtain ⟨hbehind, hscan, -⟩ := Place.scan_of_look hlook
    obtain rfl : cs = t.text ++ rest := List.append_cancel_left (hrest.symm.trans hbehind)
    refine ⟨t, rfl, (string_of_scan hstring hscan).resolve_right fun ⟨hbracket, hquoted⟩ => ?_⟩
    -- A bracket that is looked for instead of a string can follow.
    obtain ⟨hacc, -⟩ := lexeme?_of_scan hscan
    have hscanner : i.scanner.indexes = true := by
      rw [State.indexes, ← hbracket, hacc, hquoted]
      rfl
    have hindexes := h.reads.indexing State.initial_mem_all (fun hscanner _ _ _ => hscanner)
      hscanner _ hlook (congrArg some hbracket)
    rw [State.indexes, Bool.and_eq_true, ← hbracket] at hindexes
    exact State.isSome_of_accepts hindexes.1 hshift hreduction
  | atEnd hlook =>
    obtain ⟨hgap, -⟩ := Place.look_eq_end_iff.1 hlook
    rw [hgap] at hrest
    have hnil : cs = [] := (List.append_right_eq_self.1 hrest.symm)
    have hbounds := Terminal.lexeme?_bounds hn
    rw [hnil, List.length_nil] at hbounds
    omega

theorem Fails.startsString_of_token {q : State} {t : Token} (h : Fails q i (.unexpectedToken t))
    {cs : List Char} (hrest : i.rest = i.gap ++ cs) (ht : t.terminal.isFlat = false) :
    startsString cs = true := by
  refine startsString_iff.2 ⟨t.terminal, t.text.length, ht, ?_⟩
  cases h with
  | foreign _ hbehind hscan =>
    obtain ⟨-, -, -, hlexeme, -⟩ := lexeme?_of_scan hscan
    rwa [List.append_cancel_left (hrest.symm.trans hbehind)]
  | token hlook =>
    obtain ⟨hbehind, -, -⟩ := Place.scan_of_look hlook
    obtain ⟨-, -, hlexeme, -⟩ := Place.token_of_look hlook
    rwa [List.append_cancel_left (hrest.symm.trans hbehind)]

end Faults

/-! ## Messages -/

theorem ne_unterminated {m : Text} (h : m.take 3 = "une") : m ≠ "unterminated string" := by
  rintro rfl
  exact absurd h (by decide)

/-- The message of a fault tells of an unterminated string exactly where a string opens. -/
theorem SyntaxFault.message_eq_iff (file : Text) (source : List Char) (e : SyntaxFault) :
    (e.problem file source).message = "unterminated string" ↔
      e ≠ .unexpectedEnd ∧ e ≠ .stuck ∧
        opensString (source.drop (e.position source).offset) = true := by
  have hmessage {o : Bool} {m : Text} (hm : m.take 3 = "une") :
      (if o = true then ("unterminated string" : Text) else m) = "unterminated string" ↔
        o = true := by
    cases o <;> simp [ne_unterminated hm]
  cases e with
  | unexpectedEnd =>
    refine iff_of_false ?_ fun h => h.1 rfl
    exact ne_unterminated (m := "unexpected end of file") (by decide)
  | unexpectedToken t =>
    rw [and_iff_right nofun, and_iff_right nofun]
    exact hmessage rfl
  | unexpectedCharacter c p =>
    rw [and_iff_right nofun, and_iff_right nofun]
    exact hmessage rfl
  | stuck =>
    refine iff_of_false ?_ fun h => h.2.1 rfl
    change ("syntax error" : Text) ≠ "unterminated string"
    decide

/-- **What is called an unterminated string**: a syntax error where a string opens, also if it is
closed; and it is closed exactly if it is itself the token that cannot stand there. -/
theorem unterminated_string {source : List Char} {e : SyntaxFault} (h : parseTree source = .error e)
    (file : Text) :
    ∃ problem l p, parse file source = .error (.problem problem) ∧ problem.location = some l ∧
      l.StartsAt p ∧
      (problem.message = "unterminated string" ↔
        e ≠ .unexpectedEnd ∧ opensString (source.drop p.offset) = true) ∧
      (startsString (source.drop p.offset) = true → problem.message = "unterminated string") ∧
      (startsString (source.drop p.offset) = true ↔
        ∃ t, e = .unexpectedToken t ∧ t.terminal.isFlat = false) := by
  obtain ⟨stack, i, -, hstacked, hfails, -⟩ := exists_fails_of_parseTree h
  have hdrop := hfails.drop_position hstacked.in_source
  have hstuck : e ≠ .stuck := by
    rintro rfl
    exact parseTree_ne_stuck source h
  have hclosed : startsString (source.drop (e.position source).offset) = true ↔
      ∃ t, e = .unexpectedToken t ∧ t.terminal.isFlat = false := by
    rw [hdrop]
    constructor
    · exact hstacked.fault_of_startsString hfails i.gap_append_rest.symm
    · rintro ⟨t, rfl, ht⟩
      exact hfails.startsString_of_token i.gap_append_rest.symm ht
  obtain ⟨-, l, hlocation, -, hline, hcolumn, hstart⟩ := e.location_problem file source
  refine ⟨e.problem file source, l, e.position source, ?_, hlocation, ⟨hstart, hline, hcolumn⟩,
    ?_, fun hstring => ?_, hclosed⟩
  · rw [parse, h]
  · rw [e.message_eq_iff file source, and_iff_right hstuck]
  · obtain ⟨t, rfl, -⟩ := hclosed.1 hstring
    exact (SyntaxFault.message_eq_iff file source _).2
      ⟨by rintro ⟨⟩, hstuck, opensString_of_startsString hstring⟩

/-- A source with a closed string behind a whole statement. -/
def misplacedString : List Char := "return 5 \"abc\"\n".toList

theorem misplacedString_unterminated : ∃ e, parseTree misplacedString = .error e ∧
    ∃ problem l p, parse "m" misplacedString = .error (.problem problem) ∧
      problem.location = some l ∧ l.StartsAt p ∧
      (problem.message = "unterminated string" ↔
        e ≠ .unexpectedEnd ∧ opensString (misplacedString.drop p.offset) = true) ∧
      (startsString (misplacedString.drop p.offset) = true →
        problem.message = "unterminated string") ∧
      (startsString (misplacedString.drop p.offset) = true ↔
        ∃ t, e = .unexpectedToken t ∧ t.terminal.isFlat = false) := by
  obtain ⟨e, he⟩ := exists_error_of_isNone (r := parseTree misplacedString) (by decide +kernel)
  exact ⟨e, he, unterminated_string he "m"⟩

/-- A closed string is called unterminated. -/
theorem misplacedString_closed : ∃ problem, parse "m" misplacedString = .error (.problem problem) ∧
    problem.message = "unterminated string" ∧ problem.location.map (·.start) = some 9 ∧
      Terminal.quoted.lexeme? (misplacedString.drop 9) = some 5 := by
  have hfails : (match parse "m" misplacedString with
      | .error (.problem p) =>
        p.message = "unterminated string" && p.location.map (·.start) = some 9
      | _ => false) = true := by
    decide +kernel
  cases hparse : parse "m" misplacedString with
  | ok chunk =>
    rw [hparse] at hfails
    contradiction
  | error e =>
    rw [hparse] at hfails
    cases e with
    | unbuildable fault => contradiction
    | problem problem =>
      simp only [Bool.and_eq_true, decide_eq_true_eq] at hfails
      exact ⟨problem, rfl, hfails.1, hfails.2, by decide⟩

end TypedLinks.Luau
