import TypedLinks.Proofs.Parsing.Walk

/-!
# Reading lists

Elements that are written with a comma and a blank between neighbours are read into a first element
and a series of further ones. What is known of one element in front of what follows it gives what is
known of the whole list. Where an element cannot be read, the machine gets stuck in the list.
-/

namespace TypedLinks.Luau

open Grammar Lexeme

/-! ## States of a list -/

/-- The states in which the elements of a list are read: behind its opening bracket, behind the first
element, and behind the commas and elements of the series that follows. -/
structure ListStates where
  element : Category
  series : Category
  first : State
  one : State
  comma : State
  second : State
  more : State
  furtherComma : State
  third : State

/-- The moves between the states of a list. -/
structure ListStates.Valid (S : ListStates) : Prop where
  first_goto : S.first.goto? S.element = some S.one
  one_shift : S.one.shift? .comma = some S.comma
  comma_goto : S.comma.goto? S.element = some S.second
  second_reduces : ∀ la ∈ [Terminal.comma, .greater],
    S.second.reducesTo (some la) S.series .spliced 2 = true
  one_goto : S.one.goto? S.series = some S.more
  more_shift : S.more.shift? .comma = some S.furtherComma
  furtherComma_goto : S.furtherComma.goto? S.element = some S.third
  third_reduces : ∀ la ∈ [Terminal.comma, .greater],
    S.third.reducesTo (some la) S.series .spliced 3 = true
  series_ne : S.series ≠ .chunk

/-- The states in which an element may start. -/
def ListStates.bases (S : ListStates) : List State := [S.first, S.comma, S.furtherComma]

/-! ## What is written -/

/-- The characters of a terminal with one spelling. -/
def Terminal.spelled (t : Terminal) : List Char := t.spelling?.getD []

/-- The token behind some elements, and what follows that token: a comma if further elements follow,
else the given ones. -/
def following (last : Terminal × List Char) : List (List Char) → Terminal × List Char
  | [] => last
  | t :: ts => (.comma, ' ' :: (t ++ ((following last ts).1.spelled ++ (following last ts).2)))

theorem following_mem {last : Terminal × List Char} (h : last.1 ∈ [Terminal.comma, .greater])
    (texts : List (List Char)) : (following last texts).1 ∈ [Terminal.comma, .greater] := by
  cases texts with
  | nil => exact h
  | cons t ts => exact List.mem_cons_self

section Elements

variable {α : Type} {S : ListStates} {source : List Char} {text : α → List Char}
  {R : α → Part → Prop}

/-- A text is read as an element of a list in front of a token, and contributes one part. -/
def ReadsElement (S : ListStates) (source text : List Char) (next : Terminal × List Char)
    (R : Part → Prop) : Prop :=
  ∀ b ∈ S.bases, ∀ i : Place, i.scanner = b → i.In source → ∀ g, (∀ c ∈ g, isSpace c = true) →
    i.rest = g ++ (text ++ (next.1.spelled ++ next.2)) → ∀ q, b.goto? S.element = some q →
    ∃ t j p s, Reads b i [t] q j ∧ j.Shows next.1 next.1.spelled next.2 ∧
      t.parts = .ok ([p], some s) ∧ R p

/-- Each element of a list is read in front of what follows it. -/
def ReadsElements (S : ListStates) (source : List Char) (text : α → List Char)
    (R : α → Part → Prop) (last : Terminal × List Char) : List α → Prop
  | [] => True
  | x :: xs => ReadsElement S source (text x) (following last (xs.map text)) (R x) ∧
      ReadsElements S source text R last xs

/-- What has been read of a list. -/
inductive ReadsList (S : ListStates) (i : Place) : List Tree → State → Place → Prop where
  | one {t : Tree} {j : Place} (first : Reads S.first i [t] S.one j) : ReadsList S i [t] S.one j
  | more {t u : Tree} {k j : Place} (first : Reads S.first i [t] S.one k)
      (further : Reads S.one k [u] S.more j) : ReadsList S i [t, u] S.more j

namespace ReadsList

variable {i j : Place} {ts : List Tree} {q : State}

theorem reads (h : ReadsList S i ts q j) : Reads S.first i ts q j := by
  cases h with
  | one first => exact first
  | more first further => exact first.append further

/-- Behind a comma the next element may start. -/
theorem comma (hS : S.Valid) (h : ReadsList S i ts q j) {rest : List Char}
    (hj : j.Shows .comma Terminal.comma.spelled rest) :
    ∃ b ∈ S.bases, ∃ tok p, Reads S.first i (ts ++ [.leaf tok]) b ⟨b, p, rest⟩ := by
  cases h with
  | one first =>
    obtain ⟨tok, p, hcomma, -⟩ := hj.reads hS.one_shift
    exact ⟨S.comma, by simp [ListStates.bases], tok, p, first.append hcomma⟩
  | more first further =>
    obtain ⟨tok, p, hcomma, -⟩ := hj.reads hS.more_shift
    exact ⟨S.furtherComma, by simp [ListStates.bases], tok, p,
      (first.append further).append hcomma⟩

/-- A further element is read behind a comma. -/
theorem element (hS : S.Valid) (h : ReadsList S i ts q j) {ps : List Part} {span : Span}
    (hparts : Tree.partsOf ts = .ok (ps, some span)) (hi : i.In source) {text : List Char}
    {next : Terminal × List Char} {R : Part → Prop} (hx : ReadsElement S source text next R)
    (hnext : next.1 ∈ [Terminal.comma, .greater])
    (hj : j.Shows .comma Terminal.comma.spelled (' ' :: (text ++ (next.1.spelled ++ next.2)))) :
    ∃ us k p s, ReadsList S i us S.more k ∧ k.Shows next.1 next.1.spelled next.2 ∧
      Tree.partsOf us = .ok (ps ++ [p], some s) ∧ R p := by
  have hj' := hi.reads h.reads
  cases h with
  | @one t _ first =>
    obtain ⟨tok, p, hcomma, htok, -⟩ := hj.reads hS.one_shift
    obtain ⟨u, k, part, s, hu, hk, hpart, hR⟩ := hx S.comma (by simp [ListStates.bases]) _ rfl
      (hj'.reads hcomma) [' '] blank_checked rfl _ hS.comma_goto
    have hfurther := (hcomma.append hu).reduce hk.sees (hS.second_reduces _ hnext) hS.series_ne
      hS.one_goto
    have hseries := Tree.parts_spliced (c := S.series) (Tree.partsOf_snoc
      (Tree.partsOf_singleton.2
        (Tree.parts_silent (show tok.terminal.isContent = false by rw [htok]; rfl))) hpart)
    exact ⟨_, k, part, _, .more first hfurther, hk, Tree.partsOf_snoc hparts hseries, hR⟩
  | @more t F l _ first further =>
    obtain ⟨tok, p, hcomma, htok, -⟩ := hj.reads hS.more_shift
    obtain ⟨u, k, part, s, hu, hk, hpart, hR⟩ := hx S.furtherComma (by simp [ListStates.bases]) _ rfl
      (hj'.reads hcomma) [' '] blank_checked rfl _ hS.furtherComma_goto
    have hfurther := ((further.append hcomma).append hu).reduce hk.sees
      (hS.third_reduces _ hnext) hS.series_ne hS.one_goto
    obtain ⟨firstParts, s₁, furtherParts, s₂, hfirst, hF, rfl, -⟩ := Tree.partsOf_cons_eq_ok.1 hparts
    obtain ⟨s₃, hfurtherParts⟩ := Tree.partsOf_snoc_some (Tree.partsOf_snoc hF
      (Tree.parts_silent (show tok.terminal.isContent = false by rw [htok]; rfl))) hpart
    obtain ⟨s₄, hall⟩ := Tree.partsOf_snoc_some (Tree.partsOf_singleton.2 hfirst)
      (Tree.parts_spliced (c := S.series) hfurtherParts)
    rw [List.append_nil, ← List.append_assoc] at hall
    exact ⟨_, k, part, _, .more first hfurther, hk, hall, hR⟩

/-- All further elements are read. -/
theorem elements (hS : S.Valid) {last : Terminal × List Char}
    (hlast : last.1 ∈ [Terminal.comma, .greater]) {xs : List α}
    (hxs : ReadsElements S source text R last xs) (h : ReadsList S i ts q j) (hi : i.In source)
    {ps : List Part} {span : Span} (hparts : Tree.partsOf ts = .ok (ps, some span))
    (done : List α) (hdone : List.Forall₂ R done ps)
    (hj : j.Shows (following last (xs.map text)).1 (following last (xs.map text)).1.spelled
      (following last (xs.map text)).2) :
    ∃ us q' k ps' s, ReadsList S i us q' k ∧ k.Shows last.1 last.1.spelled last.2 ∧
      Tree.partsOf us = .ok (ps', some s) ∧ List.Forall₂ R (done ++ xs) ps' := by
  induction xs generalizing ts q j ps span done with
  | nil => exact ⟨ts, q, j, ps, span, h, hj, hparts, by rwa [List.append_nil]⟩
  | cons x xs ih =>
    obtain ⟨us, k, p, s, hus, hk, hpartsUs, hR⟩ := h.element hS hparts hi hxs.1
      (following_mem hlast _) hj
    obtain ⟨us', q', k', ps', s', hread, hk', hparts', hall⟩ := ih hxs.2 hus hpartsUs
      (done ++ [x]) (List.rel_append hdone (.cons hR .nil)) hk
    exact ⟨us', q', k', ps', s', hread, hk', hparts', by rwa [List.append_assoc] at hall⟩

end ReadsList

/-- A list of elements is read up to what follows the last one. -/
theorem reads_list (hS : S.Valid) {last : Terminal × List Char}
    (hlast : last.1 ∈ [Terminal.comma, .greater]) {x : α} {xs : List α}
    (hxs : ReadsElements S source text R last (x :: xs)) {i : Place} (hscanner : i.scanner = S.first)
    (hi : i.In source)
    (hrest : i.rest = text x ++ ((following last (xs.map text)).1.spelled ++
      (following last (xs.map text)).2)) :
    ∃ us q j ps s, ReadsList S i us q j ∧ j.Shows last.1 last.1.spelled last.2 ∧
      Tree.partsOf us = .ok (ps, some s) ∧ List.Forall₂ R (x :: xs) ps := by
  obtain ⟨t, j, p, s, ht, hj, hparts, hR⟩ := hxs.1 S.first (by simp [ListStates.bases]) i hscanner hi
    [] (by simp) hrest _ hS.first_goto
  exact ReadsList.elements hS hlast hxs.2 (.one ht) hi (Tree.partsOf_singleton.2 hparts)
    [x] (.cons hR .nil) hj

/-- The machine gets stuck in a text where it should be read as an element of a list. -/
def StopsElement (S : ListStates) (text : List Char) (next : Terminal × List Char) : Prop :=
  ∀ b ∈ S.bases, ∀ i : Place, i.scanner = b → ∀ g, (∀ c ∈ g, isSpace c = true) →
    i.rest = g ++ (text ++ (next.1.spelled ++ next.2)) →
    ∃ ts q j, Reads b i ts q j ∧ Stuck q j

/-- The elements of a list are read up to one in which the machine gets stuck. -/
def StopsElements (S : ListStates) (source : List Char) (text : α → List Char)
    (R : α → Part → Prop) (last : Terminal × List Char) : List α → Prop
  | [] => False
  | x :: xs => StopsElement S (text x) (following last (xs.map text)) ∨
      ReadsElement S source (text x) (following last (xs.map text)) (R x) ∧
        StopsElements S source text R last xs

/-- The machine gets stuck in a further element. -/
theorem ReadsList.stops (hS : S.Valid) {last : Terminal × List Char}
    (hlast : last.1 ∈ [Terminal.comma, .greater]) {xs : List α}
    (hxs : StopsElements S source text R last xs) {i j : Place} {ts : List Tree} {q : State}
    (h : ReadsList S i ts q j) (hi : i.In source) {ps : List Part} {span : Span}
    (hparts : Tree.partsOf ts = .ok (ps, some span))
    (hj : j.Shows (following last (xs.map text)).1 (following last (xs.map text)).1.spelled
      (following last (xs.map text)).2) :
    ∃ us q' k, Reads S.first i us q' k ∧ Stuck q' k := by
  induction xs generalizing ts q j ps span with
  | nil => exact hxs.elim
  | cons x xs ih =>
    rcases hxs with hx | ⟨hx, hxs⟩
    · obtain ⟨b, hb, tok, p, hcomma⟩ := h.comma hS hj
      obtain ⟨us, q', k, hus, hstuck⟩ := hx b hb ⟨b, p, _⟩ rfl [' '] blank_checked rfl
      exact ⟨_, q', k, hcomma.append hus, hstuck⟩
    · obtain ⟨us, k, p, s, hus, hk, hpartsUs, -⟩ := h.element hS hparts hi hx
        (following_mem hlast _) hj
      exact ih hxs hus hpartsUs hk

/-- The machine gets stuck in a list. -/
theorem stops_list (hS : S.Valid) {last : Terminal × List Char}
    (hlast : last.1 ∈ [Terminal.comma, .greater]) {x : α} {xs : List α}
    (hxs : StopsElements S source text R last (x :: xs)) {i : Place}
    (hscanner : i.scanner = S.first) (hi : i.In source)
    (hrest : i.rest = text x ++ ((following last (xs.map text)).1.spelled ++
      (following last (xs.map text)).2)) :
    ∃ us q j, Reads S.first i us q j ∧ Stuck q j := by
  rcases hxs with hx | ⟨hx, hxs⟩
  · exact hx S.first (by simp [ListStates.bases]) i hscanner [] (by simp) hrest
  · obtain ⟨t, j, p, s, ht, hj, hparts, -⟩ := hx S.first (by simp [ListStates.bases]) i hscanner hi
      [] (by simp) hrest _ hS.first_goto
    exact (ReadsList.one ht).stops hS hlast hxs hi (Tree.partsOf_singleton.2 hparts) hj

end Elements

end TypedLinks.Luau
