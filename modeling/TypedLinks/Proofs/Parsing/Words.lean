import TypedLinks.Proofs.Lexing.Written
import TypedLinks.Proofs.Parsing.Shifts
import TypedLinks.Proofs.Parsing.Tokens
import TypedLinks.Proofs.Syntax.Chunk

/-!
# Whole words

Where a name may come next the longest word is read, so a keyword is a whole word there. But some
states look for keywords and for no name: behind the end of a block, behind attributes, and behind a
word that starts the field of a table. A keyword is split off a longer word there.
-/

namespace TypedLinks.Luau

open Grammar Lexeme

/-! ## Words where a name may come -/

/-- Whether a terminal is a word that is spelled like a name. -/
def Terminal.isKeyword (t : Terminal) : Bool := t.spelling?.any fun w => name? w = some w.length

/-- Whether a terminal is a keyword or the name. -/
def Terminal.isWord (t : Terminal) : Bool := t = .name || t.isKeyword

/-- Whether a token is a word as a whole: characters of names that no further one follows. -/
def Token.IsWhole (source : List Char) (t : Token) : Prop :=
  (∀ c ∈ t.text, isNamePart c = true) ∧ EndsName (source.drop t.span.stop.offset)

theorem IsName.lexeme?_append {w : List Char} (h : IsName w) (rest : List Char) :
    Terminal.name.lexeme? (w ++ rest) = some (w.length + run isNamePart rest) := by
  obtain ⟨c, cs, rfl, hc, hcs⟩ := h.cons
  change name? (c :: (cs ++ rest)) = _
  have hrun : run isNamePart (cs ++ rest) = cs.length + run isNamePart rest := by
    rw [run, List.takeWhile_append, if_pos (by rw [List.takeWhile_eq_self_iff.2 hcs]),
      List.length_append]
    rfl
  rw [name?, if_pos hc, hrun, List.length_cons]
  congr 1
  omega

theorem endsName_of_run_eq_zero {rest : List Char} (h : run isNamePart rest = 0) :
    EndsName rest := by
  intro c hc
  obtain ⟨cs, rfl⟩ := List.head?_eq_some_iff.1 hc
  by_contra hpart
  rw [Bool.not_eq_false] at hpart
  rw [run_cons, if_pos hpart] at h
  contradiction

/-- The text of a word is a name. -/
theorem isName_of_isWord {t : Terminal} (ht : t.isWord = true) {text rest : List Char}
    (h : t.lexeme? (text ++ rest) = some text.length) : IsName text := by
  rw [Terminal.isWord, Bool.or_eq_true, decide_eq_true_eq] at ht
  rcases ht with rfl | hkeyword
  · exact isName_of_lexeme? h
  · obtain ⟨w, hw, hname⟩ := (Option.any_eq_true _ _).1 hkeyword
    rw [Terminal.text_of_spelling? hw h]
    have heq : name? w = some w.length := of_decide_eq_true hname
    exact heq

/-- Where a name may come, a word is read to its end. -/
theorem endsName_of_scan {accepted : Terminal → Bool} (hname : accepted .name = true) {t : Token}
    {p : Position} {cs rest : List Char} (ht : t.terminal.isWord = true)
    (h : scan accepted p cs = some (t, rest)) : EndsName rest := by
  obtain ⟨-, rfl, -, hlexeme, -⟩ := lexeme?_of_scan h
  have hlonger := (isName_of_isWord ht (by simpa using hlexeme)).lexeme?_append rest
  obtain ⟨n, hlongest, htext, -⟩ := scan_eq_some_iff.1 h
  obtain ⟨-, hn⟩ := mem_candidates.1 (mem_of_longest hlongest)
  obtain rfl : t.text.length = n := Option.some.inj (hlexeme.symm.trans hn)
  have hle := le_of_longest hlongest (mem_candidates.2 ⟨hname, hlonger⟩)
  exact endsName_of_run_eq_zero (by omega)

/-! ## States without names -/

/-- Where a keyword may come behind a token that no name may follow, by the item of the token. -/
def Item.exposes (t k : Terminal) (i : Item) : Bool :=
  (i.category = .lastStatement && [.kwBreak, .semicolon].contains t &&
    [.kwElse, .kwElseif, .kwEnd, .kwUntil].contains k) ||
  (i.category = .attribute && [.kwFunction, .kwLocal].contains k) ||
  (i.category = .statement && i.passed = 2 && i.body.head? = some (.category .attributes) &&
    t = .kwLocal && k = .kwFunction) ||
  ([.fieldName, .nameExpression].contains i.category &&
    [.name, .kwType, .kwExport, .kwContinue].contains t && [.kwAnd, .kwOr].contains k)

set_option maxRecDepth 100000 in
theorem exposures_checked :
    (Terminal.all.all fun t => (afterToken t).all fun q => q.accepts .name ||
      Terminal.all.all fun k => !(k.isKeyword && q.accepts k) || q.items.all (·.exposes t k)) =
      true := by
  decide +kernel

/-- Whether an item goes on with the field of a table, if it goes on with a tree. -/
def Item.awaitsField (i : Item) : Bool :=
  [some (.category .tableField), some (.token .rightBrace)].contains i.body[i.passed]?

set_option maxRecDepth 100000 in
theorem fields_checked :
    (Terminal.all.all fun t => (afterToken t).all fun q => q.accepts .name ||
      !(q.items.any fun i => [.fieldName, .nameExpression].contains i.category) ||
      State.all.all fun q₀ => !q.follows q₀ || q₀.items.all (·.awaitsField)) = true := by
  decide +kernel

/-- Where a token of a tree stands that keywords may follow, but no name. -/
inductive Exposed (tree : Tree) (t : Token) : Terminal → Prop where
  /-- Before the end of a block, behind a last statement that could not go on. -/
  | closed {l : Construct} {ts : List Tree} {k : Terminal}
      (within : (Tree.node .lastStatement l ts).Within tree) (child : .leaf t ∈ ts)
      (word : t.terminal ∈ [.kwBreak, .semicolon])
      (next : k ∈ [.kwElse, .kwElseif, .kwEnd, .kwUntil]) : Exposed tree t k
  /-- Behind an attribute. -/
  | attributed {l : Construct} {ts : List Tree} {k : Terminal}
      (within : (Tree.node .attribute l ts).Within tree) (child : .leaf t ∈ ts)
      (next : k ∈ [.kwFunction, .kwLocal]) : Exposed tree t k
  /-- Behind the `local` of a function with attributes. -/
  | declared {l : Construct} {a : Tree} {ts : List Tree}
      (within : (Tree.node .statement l (a :: .leaf t :: ts)).Within tree)
      (attributes : a.symbol = .category .attributes) (word : t.terminal = .kwLocal) :
      Exposed tree t .kwFunction
  /-- Behind a word that the field of a table starts with, which may be a name or a key. -/
  | field {u : Tree} {k : Terminal} (within : u.Within tree)
      (symbol : u.symbol = .category .tableField) (first : u.tokens.head? = some t)
      (word : t.terminal ∈ [.name, .kwType, .kwExport, .kwContinue])
      (next : k ∈ [.kwAnd, .kwOr]) : Exposed tree t k

theorem Exposed.parent {b : Tree} {ts : List Tree} {c : Category} {l : Construct} {t : Token}
    {k : Terminal} (h : Exposed b t k) (hb : b ∈ ts) : Exposed (.node c l ts) t k := by
  cases h with
  | closed within child word next => exact .closed (.child hb within) child word next
  | attributed within child next => exact .attributed (.child hb within) child next
  | declared within attributes word => exact .declared (.child hb within) attributes word
  | field within symbol first word next => exact .field (.child hb within) symbol first word next

section Shifts

variable {b : Tree} {q : State} {i j : Place} {s : Shift}

/-- Behind a token that no name may follow, a keyword is looked for at these items only. -/
theorem exposes_of_accepts {t k : Terminal} (hq : q ∈ afterToken t)
    (hname : q.accepts .name = false) (hk : k.isKeyword = true) (hacc : q.accepts k = true)
    {item : Item} (hitem : item ∈ q.items) : item.exposes t k = true := by
  have hcheck := List.all_eq_true.1 (List.all_eq_true.1 exposures_checked t (Terminal.mem_all t))
    q hq
  rw [hname, Bool.false_or] at hcheck
  have hexposes := List.all_eq_true.1 hcheck k (Terminal.mem_all k)
  rw [hk, hacc, Bool.and_self, Bool.not_true, Bool.false_or] at hexposes
  exact List.all_eq_true.1 hexposes item hitem

/-- A word that no name may follow, and that is a name or the key of a field, is the first one of a
field. -/
theorem Reads.exists_field (h : Reads .initial i [b] q j) (hs : s ∈ b.shifts .initial)
    (hname : s.after.accepts .name = false) {item : Item} (hitem : item ∈ s.after.items)
    (hword : item.category ∈ [.fieldName, .nameExpression])
    (hbrace : s.token.terminal ≠ .rightBrace) :
    ∃ u : Tree, u.Within b ∧ u.symbol = .category .tableField ∧
      u.tokens.head? = some s.token := by
  obtain ⟨hbefore, hshift⟩ := h.shift_eq State.initial_mem_all hs
  have hfields := List.all_eq_true.1 (List.all_eq_true.1 fields_checked _
    (Terminal.mem_all s.token.terminal)) _ (State.mem_afterToken hshift)
  have hany : (s.after.items.any fun i =>
      [Category.fieldName, .nameExpression].contains i.category) = true :=
    List.any_eq_true.2 ⟨item, hitem, List.contains_iff_mem.2 hword⟩
  rw [hname, hany, Bool.not_true, Bool.false_or, Bool.false_or] at hfields
  have hawaits := List.all_eq_true.1 hfields s.before hbefore
  rw [(State.move?_eq_some (s := .token s.token.terminal) hshift).2, Bool.not_true,
    Bool.false_or] at hawaits
  rcases h.starts State.initial_mem_all hs with
    ⟨-, hinitial⟩ | ⟨u, hu, hhead, item', hitem', hnext⟩
  · rw [hinitial] at hawaits
    contradiction
  · have hawait := List.all_eq_true.1 hawaits item' hitem'
    rw [Item.awaitsField, hnext, List.contains_iff_mem, List.mem_cons, List.mem_singleton] at hawait
    rcases hawait with hfield | hclose
    · exact ⟨u, hu, Option.some.inj hfield, hhead⟩
    · cases u with
      | leaf t =>
        cases hhead
        exact absurd (Symbol.token.inj (Option.some.inj hclose)) hbrace
      | node => cases hclose

/-- A token behind which a keyword is looked for and no name stands at one of these places. -/
theorem Reads.exposed (h : Reads .initial i [b] q j) (hb : b.symbol = .category .block)
    (hs : s ∈ b.shifts .initial) {k : Terminal} (hname : s.after.accepts .name = false)
    (hk : k.isKeyword = true) (hacc : s.after.accepts k = true) : Exposed b s.token k := by
  obtain ⟨-, hshift⟩ := h.shift_eq State.initial_mem_all hs
  rcases h.standsIn State.initial_mem_all hs with ⟨hleaf, -⟩ | ⟨u, hu, c, l, ts, us, rfl, hstands⟩
  · rw [hleaf] at hb
    contradiction
  obtain ⟨item, hitem, hcategory, hpassed, hbody⟩ := hstands
  have hmember : .leaf s.token ∈ ts ++ .leaf s.token :: us := by simp
  have hexposes := exposes_of_accepts (State.mem_afterToken hshift) hname hk hacc hitem
  simp only [Item.exposes, Bool.or_eq_true, Bool.and_eq_true, decide_eq_true_eq,
    List.contains_iff_mem] at hexposes
  rcases hexposes with
    ((⟨⟨hlast, ht⟩, hnext⟩ | ⟨hattribute, hnext⟩) | ⟨⟨⟨⟨hstatement, htwo⟩, hfirst⟩, ht⟩, rfl⟩) |
    ⟨⟨hwords, ht⟩, hnext⟩
  · obtain rfl := hcategory.symm.trans hlast
    exact .closed hu hmember ht hnext
  · obtain rfl := hcategory.symm.trans hattribute
    exact .attributed hu hmember hnext
  · obtain rfl := hcategory.symm.trans hstatement
    obtain ⟨a, rfl⟩ : ∃ a, ts = [a] := List.length_eq_one_iff.1 (by omega)
    rw [hbody] at hfirst
    exact .declared hu (Option.some.inj hfirst) ht
  · have hbrace : s.token.terminal ≠ .rightBrace := by
      intro heq
      rw [heq] at ht
      contradiction
    obtain ⟨u, hu, hfield, hhead⟩ := h.exists_field hs hname hitem hwords hbrace
    exact .field hu hfield hhead ht hnext

end Shifts

/-! ## Words of a source -/

/-- A word is read to its end, unless it is a keyword at a place where no name may come. -/
theorem words_whole {source : List Char} {tree : Tree} (h : parseTree source = .ok tree) {t : Token}
    (ht : t ∈ tree.tokens) (hword : t.terminal.isWord = true) :
    t.IsWhole source ∨
      t.terminal ≠ .name ∧ ∃ t', [t', t] <:+: tree.tokens ∧ Exposed tree t' t.terminal := by
  obtain ⟨b, hchunk, rfl⟩ := parseTree_eq_ok_iff.1 h
  have hsymbol := hchunk.symbol
  obtain ⟨q, j, -, -, hreads, -⟩ := hchunk
  have hscanned := hreads.scanned
  rw [Tree.shiftsOf, Tree.shiftsOf, List.append_nil] at hscanned
  have htokens : (Tree.node .chunk .spliced [b]).tokens = (b.shifts .initial).map (·.token) := by
    rw [Tree.map_token_shifts, Tree.tokens, Tree.tokensOf, Tree.tokensOf, List.append_nil]
  rw [htokens] at ht ⊢
  obtain ⟨s, hs, rfl⟩ := List.mem_map.1 ht
  obtain ⟨before, after, hshifts⟩ := List.append_of_mem hs
  rw [hshifts] at hscanned
  obtain ⟨i, hbefore, hlast⟩ := hscanned.split
  cases hlast with
  | @cons _ _ _ p rest _ hlook hothers =>
    obtain ⟨-, hscan, rfl⟩ := Place.scan_of_look hlook
    obtain ⟨hacc, -, -, hlexeme, -⟩ := lexeme?_of_scan hscan
    have hparts := (isName_of_isWord hword hlexeme).parts
    have hrest := ((hbefore.place_in (.start source)).of_look hlook s.after).drop_offset
    have hwhole (hends : EndsName rest) : s.token.IsWhole source := ⟨hparts, hrest ▸ hends⟩
    cases hname : i.scanner.accepts .name with
    | true => exact .inl (hwhole (endsName_of_scan hname hword hscan))
    | false =>
      have hother : s.token.terminal ≠ .name := by
        intro hterminal
        rw [hterminal, hname] at hacc
        contradiction
      have hkeyword : s.token.terminal.isKeyword = true := by
        rw [Terminal.isWord, decide_eq_false hother, Bool.false_or] at hword
        exact hword
      rcases List.eq_nil_or_concat before with rfl | ⟨ss, s', rfl⟩
      · cases hbefore
        have haccepts : State.initial.accepts .name = true := by decide
        exact absurd (hname.symm.trans haccepts) Bool.false_ne_true
      · rw [List.concat_eq_append] at hbefore hshifts
        rw [hbefore.scanner_eq] at hname hacc
        have hmem : s' ∈ b.shifts .initial := by
          rw [hshifts]
          simp
        refine .inr ⟨hother, s'.token, ?_, ?_⟩
        · rw [hshifts]
          exact ⟨ss.map (·.token), after.map (·.token), by simp⟩
        · exact (hreads.exposed hsymbol hmem hname hkeyword hacc).parent (List.mem_singleton_self b)

/-- A source with words that end inside longer ones: behind a `break`, behind names that start
fields, behind attributes, and behind a `local` that has one. -/
def gluedSource : List Char :=
  "do break endlocal x = \x7b a andb, c orb \x7d @native functionf() end
@checked local functiong() end".toList

/-- Some of its words are not whole: they end where another letter follows. -/
theorem gluedSource_words : ∃ tree, parseTree gluedSource = .ok tree ∧
    (tree.tokens.filter fun t => t.terminal.isWord &&
        (gluedSource.drop t.span.stop.offset).head?.any isNamePart).map (·.text) =
      ["end", "and", "or", "function", "function"].map String.toList ∧
    ∀ t ∈ tree.tokens, t.terminal.isWord = true → t.IsWhole gluedSource ∨
      t.terminal ≠ .name ∧ ∃ t', [t', t] <:+: tree.tokens ∧ Exposed tree t' t.terminal := by
  have hrun : (parseTree gluedSource).toOption.any (fun tree =>
      (tree.tokens.filter fun t => t.terminal.isWord &&
          (gluedSource.drop t.span.stop.offset).head?.any isNamePart).map (·.text) =
        ["end", "and", "or", "function", "function"].map String.toList) = true := by
    unfold gluedSource
    rw [String.toList_ofList]
    decide +kernel
  obtain ⟨tree, htree, hglued⟩ := exists_ok_of_any hrun
  exact ⟨tree, htree, of_decide_eq_true hglued, fun t ht hword => words_whole htree ht hword⟩

end TypedLinks.Luau
