import TypedLinks.Proofs.Lexing.Blanks
import TypedLinks.Proofs.Parsing.Tokens
import TypedLinks.Proofs.Syntax.Unplaced

/-!
# A space for each comment

A source with a space in the place of each comment between its tokens. The machine reads it in step
with the source: at every place it sees the same token, so it shifts and reduces in the same way. What
it reads is the same tree apart from places.
-/

namespace TypedLinks.Luau

open Lexeme

/-! ## Sources without comments -/

/-- The characters from a place on, with a space for each comment before, between and behind some
tokens. The characters of the tokens are copied. -/
def blankBetween : List Token → List Char → List Char
  | [], cs => blankGap 0 cs ++ cs.drop (gap 0 cs).length
  | t :: ts, cs =>
    let behind := cs.drop (gap 0 cs).length
    blankGap 0 cs ++ (behind.take t.text.length ++ blankBetween ts (behind.drop t.text.length))

/-- A source with a space for each of its comments. -/
def blankComments (source : List Char) : List Char := blankBetween (tokensRead source) source

theorem blanked_blankBetween (ts : List Token) (cs : List Char) :
    Blanked cs (blankBetween ts cs) := by
  induction ts generalizing cs with
  | nil =>
    apply Blanked.gap
    exact Blanked.refl _
  | cons t ts ih =>
    have htoken := (ih ((cs.drop (gap 0 cs).length).drop t.text.length)).append_left
      ((cs.drop (gap 0 cs).length).take t.text.length)
    rw [List.take_append_drop] at htoken
    exact htoken.gap

theorem blankBetween_nil {cs : List Char} (h : gap 0 cs = cs) :
    blankBetween [] cs = blankGap 0 cs := by
  rw [blankBetween, h, List.drop_length, List.append_nil]

theorem blankBetween_cons {t : Token} {cs rest : List Char}
    (h : cs = gap 0 cs ++ (t.text ++ rest)) (ts : List Token) :
    blankBetween (t :: ts) cs = blankGap 0 cs ++ (t.text ++ blankBetween ts rest) := by
  have hdrop := congrArg (List.drop (gap 0 cs).length) h
  rw [List.drop_left] at hdrop
  rw [blankBetween, hdrop, List.take_left, List.drop_left]

/-- A text is made of some tokens, white space and comments, and another one has a space in the place
of each of the comments. -/
inductive SpaceForComments : List Token → List Char → List Char → Prop where
  | nil : SpaceForComments [] [] []
  | space {a b b' : List Char} {ts : List Token} (lexeme : space? (a ++ b) = some a.length)
      (others : SpaceForComments ts b b') : SpaceForComments ts (a ++ b) (a ++ b')
  | comment {a b b' : List Char} {ts : List Token} (lexeme : comment? (a ++ b) = some a.length)
      (others : SpaceForComments ts b b') : SpaceForComments ts (a ++ b) (' ' :: b')
  | token {t : Token} {b b' : List Char} {ts : List Token} (starts : StartsToken (t.text ++ b))
      (others : SpaceForComments ts b b') :
      SpaceForComments (t :: ts) (t.text ++ b) (t.text ++ b')

theorem SpaceForComments.gap {ts : List Token} {cs r' : List Char}
    (h : SpaceForComments ts (cs.drop (gap 0 cs).length) r') :
    SpaceForComments ts cs (blankGap 0 cs ++ r') :=
  blankGap_induction .space .comment h

/-! ## Tokens ahead -/

/-- The next token at a place is the first of some tokens. The source ends there if there is none. -/
def Place.StandsBefore (i : Place) (ts : List Token) : Prop :=
  ∃ p rest, i.look = some ⟨ts.head?, p, rest⟩

/-- Trees are read where their tokens are ahead. -/
theorem Reads.standsBefore {q q' : State} {i j : Place} {ts : List Tree} (h : Reads q i ts q' j)
    {us : List Token} (hj : j.StandsBefore us) : i.StandsBefore (Tree.tokensOf ts ++ us) := by
  induction h generalizing us with
  | nil => exact hj
  | leaf hlook _ _ _ => exact ⟨_, _, hlook⟩
  | node _ _ _ _ _ _ _ ihcs ih =>
    rw [Tree.tokensOf, Tree.tokens, List.append_assoc]
    exact ihcs (ih hj)

/-- Behind the gap in front of a token the token starts. -/
theorem Place.startsToken_of_look {i : Place} {t : Token} {p : Position} {rest : List Char}
    (hlook : i.look = some ⟨some t, p, rest⟩) : StartsToken (t.text ++ rest) := by
  obtain ⟨hrest, -, -⟩ := scan_of_look hlook
  obtain ⟨-, hne, -, -, -⟩ := token_of_look hlook
  refine ⟨fun hnil => hne (List.append_eq_nil_iff.1 hnil).1, ?_⟩
  have htrivia := triviaLength_drop_gap 0 i.rest
  have hdrop := congrArg (List.drop i.gap.length) hrest
  rw [List.drop_left] at hdrop
  exact hdrop ▸ htrivia

/-- Where trees are read the comments between their tokens are replaced. -/
theorem Reads.spaceForComments {q q' : State} {i j : Place} {ts : List Tree}
    (h : Reads q i ts q' j) {us : List Token}
    (hj : SpaceForComments us j.rest (blankBetween us j.rest)) :
    SpaceForComments (Tree.tokensOf ts ++ us) i.rest
      (blankBetween (Tree.tokensOf ts ++ us) i.rest) := by
  induction h generalizing us with
  | nil => exact hj
  | @leaf q q₁ q₂ i j t p rest ts hlook _ _ ih =>
    obtain ⟨hrest, -, -⟩ := Place.scan_of_look hlook
    have hblank := blankBetween_cons hrest (Tree.tokensOf ts ++ us)
    have hdrop := congrArg (List.drop i.gap.length) hrest
    rw [List.drop_left] at hdrop
    rw [Tree.tokensOf, Tree.tokens, List.singleton_append, List.cons_append, hblank]
    apply SpaceForComments.gap
    rw [← Place.gap, hdrop]
    exact .token (Place.startsToken_of_look hlook) (ih hj)
  | node _ _ _ _ _ _ _ ihcs ih =>
    rw [Tree.tokensOf, Tree.tokens, List.append_assoc]
    exact ihcs (ih hj)

/-! ## Places without comments -/

/-- A place stands for another one, from which on the comments between some tokens are replaced. -/
structure Place.Uncommented (ts : List Token) (i i' : Place) : Prop where
  scanner : i'.scanner = i.scanner
  rest : i'.rest = blankBetween ts i.rest

namespace Place.Uncommented

variable {i i' : Place} {t : Token} {ts : List Token} {p : Position} {rest : List Char}

theorem look_end (h : Uncommented [] i i') (hlook : i.look = some ⟨none, p, rest⟩) :
    ∃ p', i'.look = some ⟨none, p', []⟩ := by
  have hrest := h.rest
  rw [blankBetween_nil (look_eq_end_iff.1 hlook).1] at hrest
  have hspaces : Luau.gap 0 (blankGap 0 i.rest ++ []) = blankGap 0 i.rest :=
    gap_of_spaces isSpace_of_mem_blankGap rfl
  have hblank : i'.gap = i'.rest := by
    rw [Place.gap, hrest]
    rwa [List.append_nil] at hspaces
  exact ⟨_, look_eq_end_iff.2 ⟨hblank, rfl, rfl⟩⟩

theorem look_token (h : Uncommented (t :: ts) i i') (hlook : i.look = some ⟨some t, p, rest⟩) :
    ∃ t' p', i'.look = some ⟨some t', p', blankBetween ts rest⟩ ∧ t'.unplaced = t.unplaced := by
  obtain ⟨hrest, hscan, -⟩ := scan_of_look hlook
  obtain ⟨-, hne, -, -, -⟩ := token_of_look hlook
  have hblanked := blanked_blankBetween ts rest
  have hrest' : i'.rest = blankGap 0 i.rest ++ (t.text ++ blankBetween ts rest) := by
    rw [h.rest]
    exact blankBetween_cons hrest ts
  have hgap : i'.gap = blankGap 0 i.rest := by
    rw [Place.gap, hrest']
    apply gap_of_spaces isSpace_of_mem_blankGap
    exact ((startsToken_of_look hlook).blanked hne hblanked).2
  have hscan' := scan_blanked (q := i'.position.advance (blankGap 0 i.rest)) hscan hblanked
  rw [← h.scanner] at hscan'
  exact ⟨_, _, look_of_scan hrest' hgap hscan', rfl⟩

/-- What is seen ahead has the same terminal. -/
theorem look (h : Uncommented ts i i') (hbefore : i.StandsBefore ts) {s : Sight}
    (hlook : i.look = some s) :
    ∃ s', i'.look = some s' ∧ s'.terminal = s.terminal := by
  obtain ⟨p, rest, hts⟩ := hbefore
  obtain rfl := Option.some.inj (hlook.symm.trans hts)
  cases ts with
  | nil =>
    obtain ⟨p', hlook'⟩ := h.look_end hlook
    exact ⟨_, hlook', rfl⟩
  | cons t ts =>
    obtain ⟨t', p', hlook', hsame⟩ := h.look_token hlook
    refine ⟨_, hlook', ?_⟩
    rw [Sight.terminal, Option.map_some, (Token.unplaced_eq_iff.1 hsame).1]
    rfl

end Place.Uncommented

/-! ## Trees without comments -/

/-- The trees that are read are read without comments as well, apart from places. -/
theorem Reads.uncommented {q q' : State} {i i' j : Place} {ts : List Tree} (h : Reads q i ts q' j)
    {us : List Token} (hj : j.StandsBefore us)
    (hi : Place.Uncommented (Tree.tokensOf ts ++ us) i i') :
    ∃ ts' j', Reads q i' ts' q' j' ∧ Tree.unplacedOf ts' = Tree.unplacedOf ts ∧
      Place.Uncommented us j j' := by
  induction h generalizing us i' with
  | nil q i => exact ⟨[], i', .nil _ _, rfl, hi⟩
  | @leaf q q₁ q₂ i j t p rest ts hlook hshift _ ih =>
    obtain ⟨t', p', hlook', hsame⟩ := Place.Uncommented.look_token hi hlook
    have hshift' : q.shift? t'.terminal = some q₁ := by
      rwa [(Token.unplaced_eq_iff.1 hsame).1]
    have hnext : Place.Uncommented (Tree.tokensOf ts ++ us) ⟨q₁, p, rest⟩
        ⟨q₁, p', blankBetween (Tree.tokensOf ts ++ us) rest⟩ := ⟨rfl, rfl⟩
    obtain ⟨ts', j', hreads, hts, hjj⟩ := ih hj hnext
    refine ⟨.leaf t' :: ts', j', .leaf hlook' hshift' hreads, ?_, hjj⟩
    rw [Tree.unplacedOf, Tree.unplacedOf, Tree.unplaced, Tree.unplaced, hsame, hts]
  | @node q q₁ q₂ q₃ i j k s r cs ts _ hlook hr hsize hinner hgoto hothers ihcs ih =>
    rw [Tree.tokensOf, Tree.tokens, List.append_assoc] at hi
    have hbefore := hothers.standsBefore hj
    obtain ⟨cs', j', hreads, hcs, hjj⟩ := ihcs hbefore hi
    obtain ⟨s', hlook', hterminal⟩ := hjj.look hbefore hlook
    obtain ⟨ts', k', hreads', hts, hkk⟩ := ih hj hjj
    refine ⟨.node _ _ cs' :: ts', k', .node hreads hlook' ?_ ?_ hinner hgoto hreads', ?_, hkk⟩
    · rw [hterminal]
      exact hr
    · rw [Tree.length_of_unplacedOf_eq hcs, hsize]
    · rw [Tree.unplacedOf, Tree.unplacedOf, Tree.unplaced, Tree.unplaced, hcs, hts]

variable {source : List Char}

/-- A source that has a block has the same one without comments, apart from places. -/
theorem ReadsChunk.uncommented {b : Tree} (h : ReadsChunk source b) :
    ∃ b', ReadsChunk (blankComments source) b' ∧ b'.unplaced = b.unplaced := by
  have htokens : Tree.tokensOf [b] = tokensRead source :=
    tokens_of_parseTree (parseTree_eq_ok_iff.2 ⟨b, h, rfl⟩)
  obtain ⟨q, j, r, p, hreads, hlook, hr, hhead⟩ := h.to_end
  have hbefore : j.StandsBefore [] := ⟨p, [], hlook⟩
  have hstart : Place.Uncommented (Tree.tokensOf [b] ++ []) (.start source)
      (.start (blankComments source)) := by
    rw [List.append_nil, htokens]
    exact ⟨rfl, rfl⟩
  obtain ⟨ts', j', hreads', hts, hjj⟩ := hreads.uncommented hbefore hstart
  obtain ⟨s', hlook', hterminal⟩ := hjj.look hbefore hlook
  obtain ⟨b', rfl⟩ : ∃ b', ts' = [b'] :=
    List.length_eq_one_iff.1 (Tree.length_of_unplacedOf_eq hts)
  refine ⟨b', ⟨q, j', s', r, hreads', hlook', ?_, hhead⟩, (List.cons.inj hts).1⟩
  rw [hterminal]
  exact hr

/-- The tokens of a source are those of the source without comments, apart from places. -/
theorem tokensRead_blankComments {t : Tree} (h : parseTree source = .ok t) :
    (tokensRead (blankComments source)).map Token.unplaced =
      (tokensRead source).map Token.unplaced := by
  obtain ⟨b, hchunk, rfl⟩ := parseTree_eq_ok_iff.1 h
  obtain ⟨b', hchunk', hsame⟩ := hchunk.uncommented
  have h' := parseTree_eq_ok_iff.2 ⟨b', hchunk', rfl⟩
  have htree : (Tree.node .chunk .spliced [b']).unplaced =
      (Tree.node .chunk .spliced [b]).unplaced := by
    simp only [Tree.unplaced, Tree.unplacedOf, hsame]
  rw [← tokens_of_parseTree h, ← tokens_of_parseTree h', ← Tree.tokens_unplaced,
    ← Tree.tokens_unplaced, htree]

/-- A source that has a block is made of the tokens that are read in it, white space and the comments
that are replaced. -/
theorem spaceForComments_blankComments {t : Tree} (h : parseTree source = .ok t) :
    SpaceForComments (tokensRead source) source (blankComments source) := by
  have htokens := tokens_of_parseTree h
  obtain ⟨b, hchunk, rfl⟩ := parseTree_eq_ok_iff.1 h
  obtain ⟨q, j, r, p, hreads, hlook, -, -⟩ := hchunk.to_end
  have hj : SpaceForComments [] j.rest (blankBetween [] j.rest) := by
    have hgap : gap 0 j.rest = j.rest := (Place.look_eq_end_iff.1 hlook).1
    rw [blankBetween]
    apply SpaceForComments.gap
    rw [hgap, List.drop_length]
    exact .nil
  have hsource := hreads.spaceForComments hj
  rw [List.append_nil] at hsource
  rw [← htokens, blankComments, ← htokens]
  exact hsource

end TypedLinks.Luau
