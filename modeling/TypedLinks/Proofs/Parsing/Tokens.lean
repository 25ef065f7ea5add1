import TypedLinks.Proofs.Lexing.Languages
import TypedLinks.Proofs.Parsing.Sentences

/-!
# Tokens of a source

A token that the machine reads is on its stack or the next one to come until the run ends, and then it
is a leaf of the parse tree. The tokens lie in the source one after the other, with nothing but white
space and comments between them. So the parse tree of a source derives its tokens.
-/

namespace TypedLinks.Luau

open Grammar

/-! ## Tokens of a run -/

namespace Configuration

/-- The token that was read and not shifted yet. -/
def pending (c : Configuration) : List Token :=
  match c.lookahead with
  | .token t => [t]
  | _ => []

/-- The tokens that a configuration holds, in the order in which they were read. -/
def held (c : Configuration) : List Token := Tree.tokensOf (c.stack.reverse.map (·.2)) ++ c.pending

/-- The tokens that a run reads, in order. -/
def tokensRead : Nat → Configuration → List Token
  | 0, _ => []
  | fuel + 1, c =>
    match c.step with
    | .next c' => (if c.lookahead = .unread then c'.pending else []) ++ tokensRead fuel c'
    | _ => []

variable {stack : List (State × Tree)} {i : Place} {s : Sight}

theorem pending_seeing : (seeing stack s).pending = s.token.toList := by
  unfold pending seeing
  cases s.token <;> rfl

theorem lookahead_seeing_ne_unread : (seeing stack s).lookahead ≠ .unread := by
  unfold seeing
  cases s.token <;> exact Lookahead.noConfusion

end Configuration

open TypedLinks.Luau.Configuration

/-- A step loses no token, repeats none and changes no order. -/
theorem Moves.held {stack : List (State × Tree)} {i : Place} {c c' : Configuration}
    (h : Moves stack i c (.next c')) :
    c'.held = c.held ++ if c.lookahead = .unread then c'.pending else [] := by
  cases h with
  | look => simp [Configuration.held, unread, seeing, pending]
  | shift _ htoken =>
    rw [if_neg lookahead_seeing_ne_unread, List.append_nil, Configuration.held, Configuration.held,
      pending_seeing, htoken]
    simp [unread, seeing, pending, Tree.tokensOf_append, Tree.tokensOf, Tree.tokens]
  | @reduce s r q =>
    rw [if_neg lookahead_seeing_ne_unread, List.append_nil, Configuration.held, Configuration.held,
      pending_seeing, pending_seeing]
    have hstack : stack.reverse = (stack.drop r.size).reverse ++ (stack.take r.size).reverse := by
      rw [← List.reverse_append, List.take_append_drop]
    simp only [seeing]
    rw [hstack, List.map_append, Tree.tokensOf_append, List.reverse_cons, List.map_append,
      Tree.tokensOf_append]
    simp [Tree.tokensOf, Tree.tokens]

/-- The leaves of the result of a run are the tokens held at its start and those that it reads. -/
theorem Stacked.tokens {source : List Char} {stack : List (State × Tree)} {i : Place}
    (h : Stacked source stack i) {c : Configuration} {looked : Nat}
    (hstands : Stands c stack i looked) {fuel : Nat} {t : Tree} (hrun : c.run fuel = .ok t) :
    t.tokens = c.held ++ c.tokensRead fuel := by
  induction fuel generalizing c stack i looked with
  | zero => contradiction
  | succ fuel ih =>
    have hmoves := hstands.moves h.top_mem_all
    rw [Configuration.run] at hrun
    rw [Configuration.tokensRead]
    cases hstep : c.step with
    | next c' =>
      rw [hstep] at hrun hmoves
      obtain ⟨stack', i', looked', h', hstands'⟩ := h.next hmoves
      rw [ih h' hstands' hrun, hmoves.held, List.append_assoc]
    | done t' =>
      rw [hstep] at hrun hmoves
      cases hrun
      obtain ⟨q, b, hstack, hend, -, rfl⟩ := h.done hmoves
      simp [Configuration.held, pending, hstack, hend, Tree.tokens]
    | failed e =>
      rw [hstep] at hrun
      contradiction

/-- The tokens that the parser reads in a source. -/
def tokensRead (source : List Char) : List Token :=
  (Configuration.initial source).tokensRead (stepBound source.length)

theorem tokens_of_parseTree {source : List Char} {t : Tree} (h : parseTree source = .ok t) :
    t.tokens = tokensRead source :=
  Stacked.nil.tokens (Stands.unread rfl) h

/-! ## Tokens in the source -/

/-- A text from a position on consists of tokens, each behind a gap and at the place that it names. -/
inductive Spaced : Position → List Char → List Token → Prop where
  | nil (p : Position) : Spaced p [] []
  | cons {p : Position} {g a : List Char} {t : Token} {ts : List Token} (gap : g ∈ trivia)
      (word : t.text ∈ t.terminal.language) (nonempty : t.text ≠ [])
      (span : t.span = ⟨p.advance g, p.advance (g ++ t.text)⟩) (others : Spaced t.span.stop a ts) :
      Spaced p (g ++ t.text ++ a) (t :: ts)

namespace Spaced

variable {p : Position} {a b : List Char} {ts us : List Token}

theorem append (h : Spaced p a ts) (h' : Spaced (p.advance a) b us) :
    Spaced p (a ++ b) (ts ++ us) := by
  induction h with
  | nil => exact h'
  | @cons p g a t ts hgap hword hne hspan _ ih =>
    rw [hspan] at ih
    simp only [← Position.advance_append] at ih
    rw [List.append_assoc, List.cons_append]
    refine .cons hgap hword hne hspan ?_
    rw [hspan]
    exact ih h'

theorem mem_language (h : Spaced p a ts) {t : Token} (ht : t ∈ ts) :
    t.text ∈ t.terminal.language := by
  induction h with
  | nil => contradiction
  | cons _ hword _ _ _ ih =>
    rcases List.mem_cons.1 ht with rfl | ht
    · exact hword
    · exact ih ht

end Spaced

theorem Place.gap_mem_trivia (i : Place) : i.gap ∈ trivia := by
  obtain ⟨w, hw, hgap⟩ := Luau.gap_mem_trivia 0 i.rest
  rw [Place.gap, hgap]
  exact hw

/-- The tokens of trees that are read lie in what is passed. -/
theorem Reads.spaced {q q' : State} {i j : Place} {ts : List Tree} (h : Reads q i ts q' j) :
    ∃ a, i.rest = a ++ j.rest ∧ j.position = i.position.advance a ∧
      Spaced i.position a (Tree.tokensOf ts) := by
  induction h with
  | nil => exact ⟨[], rfl, rfl, .nil _⟩
  | @leaf q q₁ q₂ i j t p rest ts hlook hshift _ ih =>
    obtain ⟨hrest, -, -⟩ := Place.scan_of_look hlook
    obtain ⟨-, hne, hlexeme, hspan, hp⟩ := Place.token_of_look hlook
    obtain ⟨a, ha, hj, hothers⟩ := ih
    have hword := Terminal.mem_language hlexeme
    rw [List.take_left] at hword
    refine ⟨i.gap ++ t.text ++ a, ?_, ?_, ?_⟩
    · rw [hrest, show rest = a ++ j.rest from ha, List.append_assoc, List.append_assoc]
    · rw [hj, Position.advance_append, ← hp]
    · rw [Tree.tokensOf, Tree.tokens, List.singleton_append]
      refine .cons i.gap_mem_trivia hword hne (by rw [hspan, hp]) ?_
      rw [hspan]
      exact hothers
  | node _ _ _ _ _ _ _ ihcs ih =>
    obtain ⟨a, ha, hj, hchildren⟩ := ihcs
    obtain ⟨b, hb, hk, hothers⟩ := ih
    rw [hj] at hothers hk
    refine ⟨a ++ b, by rw [ha, hb, List.append_assoc], by rw [hk, Position.advance_append], ?_⟩
    rw [Tree.tokensOf, Tree.tokens]
    exact hchildren.append hothers

/-- A source that has a parse tree consists of the tokens at its leaves and what is between them. -/
theorem spaced_of_parseTree {source : List Char} {t : Tree} (h : parseTree source = .ok t) :
    ∃ a g, source = a ++ g ∧ Spaced .start a t.tokens ∧ g ∈ trivia := by
  obtain ⟨b, hchunk, rfl⟩ := parseTree_eq_ok_iff.1 h
  obtain ⟨q, j, r, p, hreads, hlook, -, -⟩ := hchunk.to_end
  obtain ⟨hgap, -, -⟩ := Place.look_eq_end_iff.1 hlook
  obtain ⟨a, ha, -, hspaced⟩ := hreads.spaced
  refine ⟨a, j.rest, ha, ?_, ?_⟩
  · exact hspaced
  · rw [← hgap]
    exact j.gap_mem_trivia

/-- A parse tree is well-formed. -/
theorem wellFormed_of_parseTree {source : List Char} {t : Tree} (h : parseTree source = .ok t) :
    t.WellFormed := by
  obtain ⟨b, hchunk, rfl⟩ := parseTree_eq_ok_iff.1 h
  have hsymbol := hchunk.symbol
  obtain ⟨q, j, s, r, hreads, -⟩ := hchunk
  have hb := hreads.wellFormed State.initial_mem_all b (List.mem_singleton_self b)
  refine .node ?_ (by simpa using hb)
  rw [List.map_singleton, hsymbol]
  exact List.mem_cons_self

/-- The parse tree of a source is a derivation of the tokens that are read in it, from a chunk; the
source is made of these tokens, in their order, and of white space and comments. -/
theorem parseTree_derivation {source : List Char} {t : Tree} (h : parseTree source = .ok t) :
    t.symbol = .category .chunk ∧ t.IsDerivation ∧ t.tokens = tokensRead source ∧
      Derives [.category .chunk] ((tokensRead source).map fun tok => .token tok.terminal) ∧
      (∀ tok ∈ tokensRead source, tok.text ∈ tok.terminal.language) ∧
      ∃ a g, source = a ++ g ∧ Spaced .start a (tokensRead source) ∧ g ∈ trivia := by
  have htokens := tokens_of_parseTree h
  have hderivation := (wellFormed_of_parseTree h).isDerivation
  have hsymbol : t.symbol = .category .chunk := by
    obtain ⟨b, -, rfl⟩ := parseTree_eq_ok_iff.1 h
    rfl
  obtain ⟨a, g, hsource, hspaced, hg⟩ := spaced_of_parseTree h
  rw [htokens] at hspaced
  refine ⟨hsymbol, hderivation, htokens, ?_, fun tok htok => hspaced.mem_language htok,
    a, g, hsource, hspaced, hg⟩
  have hderives := hderivation.derives
  rwa [hsymbol, Tree.sentence, Tree.tokensOf, Tree.tokensOf, List.append_nil, htokens] at hderives

/-- A source in which `type` and `continue` are names as well as keywords, with a comment that holds
quotes and a long bracket. -/
def wordySource : List Char :=
  "local type = continue --[==[ ]] \" ]==]\nexport type type<T...> = typeof(`\x7btype\x7d`) -- end"
    |>.toList

theorem exists_wordyTree : ∃ t, parseTree wordySource = .ok t := by
  have hok : (parseTree wordySource).toOption.isSome = true := by
    unfold wordySource
    rw [String.toList_ofList]
    decide +kernel
  cases hparse : parseTree wordySource with
  | ok t => exact ⟨t, rfl⟩
  | error e =>
    rw [hparse] at hok
    contradiction

theorem wordySource_derivation : ∃ t, parseTree wordySource = .ok t ∧
    t.symbol = .category .chunk ∧ t.IsDerivation ∧ t.tokens = tokensRead wordySource ∧
      Derives [.category .chunk] ((tokensRead wordySource).map fun tok => .token tok.terminal) ∧
      (∀ tok ∈ tokensRead wordySource, tok.text ∈ tok.terminal.language) ∧
      ∃ a g, wordySource = a ++ g ∧ Spaced .start a (tokensRead wordySource) ∧ g ∈ trivia := by
  obtain ⟨t, ht⟩ := exists_wordyTree
  exact ⟨t, ht, parseTree_derivation ht⟩

end TypedLinks.Luau
