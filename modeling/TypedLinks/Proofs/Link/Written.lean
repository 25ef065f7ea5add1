import TypedLinks.Proofs.Forwarding.Rendered
import TypedLinks.Proofs.Link.Source
import TypedLinks.Proofs.Syntax.Rebuilt

/-!
# Reading a link file that was written

The machine reads the text that is written into a link file: the gap that preceded the first
statement, the local assignment of the require call, the declarations, the last statement, and the
gap that followed. What it builds is again a link file in the form of one that was updated, with the
same require call apart from its place, and with the declarations that were written.
-/

namespace TypedLinks.Luau

open Grammar Lexeme Link

theorem State.accepts_of_reducesTo {q : State} {la : Terminal} {c : Category} {l : Construct}
    {n : Nat} (h : q.reducesTo (some la) c l n = true) : q.accepts la = true := by
  obtain ⟨r, hr, -⟩ := (Option.any_eq_true _ _).1 h
  have hr : q.reduction? (some la) = some r := hr
  rw [accepts, hr, Option.isSome_some, Bool.or_true]

/-! ## The local assignment -/

namespace State

/-- The state behind the arguments of a call. -/
def called : State := walk [.token .kwReturn, .category .suffixedExpression, .category .callArguments]

/-- The state behind what is assigned. -/
def assigned : State :=
  walk [.token .kwLocal, .category .bindingList, .token .equals, .category .expressionList]

/-- The nodes above a name that is called. -/
def calleeChain : List Category := [.primaryExpression, .suffixedExpression]

/-- The nodes above a call or a name in a list of expressions. -/
def expressionChain : List Category :=
  [.simpleExpression, .typeAssertion, .unaryExpression, .expression]

theorem binding_checked :
    initial.shift? .kwLocal = some (walk [.token .kwLocal]) ∧
      (walk [.token .kwLocal]).accepts .name = true ∧
      (∀ u ∈ (walk [.token .kwLocal]).words, u.spelling? ≠ some moduleBinding) ∧
      (walk [.token .kwLocal]).shift? .name = some (walk [.token .kwLocal, .token .name]) ∧
      (walk [.token .kwLocal, .token .name]).accepts .equals = true ∧
      (walk [.token .kwLocal]).climb (some .equals) (walk [.token .kwLocal, .token .name])
        [(.binding, .binding), (.bindingList, .bindingList)] =
          some (walk [.token .kwLocal, .category .bindingList]) ∧
      (walk [.token .kwLocal, .category .bindingList]).shift? .equals = some assigning := by
  decide

theorem assignment_checked :
    assigning.accepts .name = true ∧
      (∀ u ∈ assigning.words, u.spelling? ≠ some "require".toList) ∧
      assigning.climb (some .leftParen) named ((.nameExpression, .name) :: spliced calleeChain) =
        some callable ∧
      callable.goto? .callArguments = some called ∧
      called.reducesTo (some .kwExport) .suffixedExpression .call 2 = true ∧
      (assigning.goto? .expression).any (·.reducesTo (some .kwExport) .expressionList
        .expressionList 1) = true ∧
      assigning.climb (some .kwExport) callable (spliced expressionChain) =
        assigning.goto? .expression ∧
      assigning.goto? .expressionList = some assigned ∧
      assigned.reducesTo (some .kwExport) .statement .localAssignment 4 = true ∧
      (initial.goto? .statement).any (·.reducesTo (some .kwExport) .statements .spliced 1) = true ∧
      initial.goto? .statements = some stating := by
  decide

end State

/-- A name that may be called contributes itself. -/
theorem Tree.parts_calleeName {tok : Token} (h : tok.terminal = .name) :
    (Tree.wrap (.leaf tok) ((.nameExpression, .name) :: spliced State.calleeChain)).parts =
      .ok ([.expression (.name tok.span tok.text)], some tok.span) :=
  parts_wrap_spliced State.calleeChain (t := .node .nameExpression .name [.leaf tok])
    (parts_built (partsOf_singleton.2
      (parts_content (show tok.terminal.isContent = true by rw [h]; rfl))) (by decide) rfl)

theorem Tree.unplaced_callTree {name name' : Token} {ts ts' : List Tree}
    (hname : name'.unplaced = name.unplaced) (h : unplacedOf ts' = unplacedOf ts) :
    (callTree name' ts').unplaced = (callTree name ts).unplaced := by
  simp only [callTree, spliced, List.map_cons, List.map_nil, Tree.wrap, unplaced, unplacedOf, hname,
    h]

section Call

variable {source new b v w rest : List Char} {call : Expression} {i : Place}

theorem ReadsCall.stops (h : ReadsCall source call b v) (hw : NextStatement w .kwExport rest) :
    Stops b w := by
  refine ⟨fun c hc => ?_, fun hminus => ?_⟩
  · obtain ⟨separator, hseparator, rfl⟩ := hw.split
    simp only [List.mem_cons, List.not_mem_nil, or_false] at hseparator
    rcases hseparator with rfl | rfl <;> cases hc <;> decide
  · rw [h.last] at hminus
    exact absurd hminus.1 (by decide)

theorem ReadsCall.endsName_append (h : ReadsCall source call b v) (w : List Char) :
    EndsName (b ++ w) := by
  obtain ⟨c, cs, rfl⟩ := List.exists_cons_of_ne_nil (show b ≠ [] by
    rintro rfl
    cases h.last)
  exact fun d hd => h.endsName d hd

/-- The arguments of the require call and their closing bracket are read behind a name that is called,
in front of another continuation. -/
theorem ReadsCall.reads_call (h : ReadsCall source call b v) (hopen : KeepsOpen b v w)
    (hw : NextStatement w .kwExport rest) {name : Token} {p : Position} (hname : name.terminal = .name)
    (hnameText : name.text = "require".toList)
    (hread : Reads .assigning i [.leaf name] .named ⟨.named, p, b ++ w⟩) :
    ∃ C j call', Reads .assigning i [C] .callable j ∧ j.rest = w ∧
      j.scanner.accepts .kwExport = true ∧ C.parts = .ok ([.expression call'], some call'.span) ∧
      call'.unplaced = call.unplaced := by
  obtain ⟨-, -, hcallee, hgotoCalled, hcalled, -⟩ := State.assignment_checked
  obtain ⟨name₀, lp, es, rp, p₀, q, k, p₁, q', span, hname₀, hnameText₀, hlp, hrp, hparts, hinner,
    hk, hshift, hclose⟩ := h.reads
  have hgotoCallable : State.assigning.goto? .suffixedExpression = some .callable :=
    (State.callable_checked .assigning (by simp)).2
  have hstop := h.stops hw
  have hinside : k.Inside v := ⟨rp, p₁, [], hk⟩
  have htwin : Twin b v w ⟨.named, p₀, b ++ v⟩ ⟨.named, p, b ++ w⟩ :=
    twin_of_inside hstop hopen ⟨[], rfl⟩ (hinner.inside hinside)
  have hreadCallee : Reads .assigning i
      [(Tree.node .nameExpression .name [.leaf name]).wrap (spliced State.calleeChain)] .callable
      ⟨.named, p, b ++ w⟩ := by
    obtain ⟨q₁, i₁, hfirst, -⟩ := hinner.uncons
    obtain ⟨p₂, rest₂, hlook, -, -⟩ := hfirst.leaf_inv
    obtain ⟨lp', p₃, c, -, hlook', hsame, -⟩ := htwin.look hlook
    have hsees : Place.Sees ⟨.named, p, b ++ w⟩ (some .leftParen) :=
      ⟨_, hlook', by rw [Sight.terminal, Option.map_some, (Token.unplaced_eq_iff.1 hsame).1, hlp]⟩
    exact hread.climb hsees hcallee
  obtain ⟨es', k', hreadArguments, hunplaced, hkk⟩ := hinner.carry hstop hopen htwin hinside
  obtain ⟨rp', p₄, hreadClose, hsame⟩ := hkk.reads_last hk (hrp ▸ hshift)
  have haccExport := State.accepts_of_reducesTo hclose
  have hsees := (hw.shows (k := ⟨q', p₄, w⟩) rfl haccExport).sees
  have hlength : (es' ++ [Tree.leaf rp']).length = es.length + 2 := by
    rw [List.length_append, Tree.length_of_unplacedOf_eq hunplaced]
    rfl
  have hreadCallArguments := (hreadArguments.append hreadClose).reduce hsees
    (by rw [hlength]; exact hclose) (by decide) hgotoCalled
  have hC := (hreadCallee.append hreadCallArguments).reduce hsees hcalled (by decide) hgotoCallable
  have hunplacedCall : (Tree.callTree name (es' ++ [.leaf rp'])).unplaced =
      (Tree.callTree name₀ (.leaf lp :: (es ++ [.leaf rp]))).unplaced := by
    refine Tree.unplaced_callTree (Token.unplaced_eq_iff.2
      ⟨hname.trans hname₀.symm, hnameText.trans hnameText₀.symm⟩) ?_
    rw [← List.cons_append, Tree.unplacedOf_append, Tree.unplacedOf_append, hunplaced]
    simp only [Tree.unplacedOf, Tree.unplaced, hsame]
  obtain ⟨call', span', hparts', hcall'⟩ := Tree.parts_expression_congr hunplacedCall hparts
  obtain ⟨_, heq, -, hcovers⟩ := (hC.wellFormed (State.walk_mem_all _) _ List.mem_cons_self).fits
    hparts'
  cases heq
  obtain rfl := hcovers _ rfl
  exact ⟨_, _, call', hC, rfl, haccExport, hparts', hcall'⟩

/-- The require call of a link file is read in another source as well, with the same text. -/
theorem ReadsCall.carry (h : ReadsCall source call b v) (hopen : KeepsOpen b v w)
    (hw : NextStatement w .kwExport rest) (hscanner : i.scanner = .assigning) (hi : i.In new)
    (hrest : i.rest = [' '] ++ ("require".toList ++ (b ++ w))) :
    ∃ C j call', Reads .assigning i [C] .callable j ∧ j.rest = w ∧
      j.scanner.accepts .kwExport = true ∧ C.parts = .ok ([.expression call'], some call'.span) ∧
      call'.unplaced = call.unplaced ∧ call'.span.text new = "require".toList ++ b := by
  obtain ⟨hacc, hwords, -⟩ := State.assignment_checked
  have hshows : i.Shows .name "require".toList (b ++ w) :=
    shows_name hrest blank_checked rfl (h.endsName_append w) (by rw [hscanner, hacc])
      (by rw [hscanner]; exact hwords)
  obtain ⟨name, p, hreadName, hname, hnameText⟩ :=
    hshows.reads (State.callable_checked .assigning (by simp)).1
  obtain ⟨C, j, call', hC, hj, hacc', hparts, hcall'⟩ :=
    h.reads_call hopen hw hname hnameText hreadName
  refine ⟨C, j, call', hC, hj, hacc', hparts, hcall', ?_⟩
  refine (hC.text hi (Tree.partsOf_singleton.2 hparts) (g := [' ']) ?_ ?_).1
  · rw [Place.gap, hrest]
    exact gap_blank blank_checked (startsToken_of_head rfl (by decide) (by decide))
  · rw [hrest, hj, List.append_assoc]

theorem Tree.parts_bindingList {name : Token} (h : name.terminal = .name) :
    (Tree.wrap (.leaf name) [(.binding, .binding), (.bindingList, .bindingList)]).parts =
      .ok ([.bindings [name.text]], some name.span) := by
  have hparts := parts_content (show name.terminal.isContent = true by rw [h]; rfl)
  exact parts_built (partsOf_singleton.2 (parts_built (partsOf_singleton.2 hparts) (by decide) rfl))
    (by decide) rfl

/-- The local assignment of the require call is read, and makes up a series of statements. -/
theorem ReadsCall.reads_assignment (h : ReadsCall source call b v) (hopen : KeepsOpen b v w)
    (hw : NextStatement w .kwExport rest) (hi : i.In new)
    (hi' : i.Shows .kwLocal Terminal.kwLocal.spelled ([' '] ++ (moduleBinding ++ ([' '] ++ (['='] ++
      ([' '] ++ ("require".toList ++ (b ++ w)))))))) :
    ∃ S j call' span span', Reads .initial i [S] .stating j ∧ j.rest = w ∧
      j.scanner.accepts .kwExport = true ∧
      S.parts = .ok ([.statement (.localAssignment span [moduleBinding] [call'])], some span') ∧
      call'.unplaced = call.unplaced ∧ call'.span.text new = "require".toList ++ b := by
  obtain ⟨hshiftLocal, haccName, hwords, hshiftName, haccEquals, hbinding, hshiftEquals⟩ :=
    State.binding_checked
  obtain ⟨-, -, -, -, -, hlist, hexpression, hassigned, hstatement, hseries, hstating⟩ :=
    State.assignment_checked
  obtain ⟨kw, p₁, hreadLocal, hkw, -⟩ := hi'.reads hshiftLocal
  have hshows : Place.Shows ⟨.walk [.token .kwLocal], p₁, [' '] ++ (moduleBinding ++ ([' '] ++
      (['='] ++ ([' '] ++ ("require".toList ++ (b ++ w))))))⟩ .name moduleBinding
      ([' '] ++ (['='] ++ ([' '] ++ ("require".toList ++ (b ++ w))))) :=
    shows_name rfl blank_checked rfl (by rintro c ⟨⟩; decide) haccName hwords
  obtain ⟨name, p₂, hreadName, hname, hnameText⟩ := hshows.reads hshiftName
  have hequals : Place.Shows ⟨.walk [.token .kwLocal, .token .name], p₂, [' '] ++ (['='] ++ ([' '] ++
      ("require".toList ++ (b ++ w))))⟩ .equals ['='] ([' '] ++ ("require".toList ++ (b ++ w))) :=
    shows_symbol rfl blank_checked rfl rfl haccEquals (by rintro c ⟨⟩; decide)
  have hreadBinding := hreadName.climb hequals.sees hbinding
  obtain ⟨sign, p₃, hreadSign, hsign, -⟩ := hequals.reads hshiftEquals
  have hread := (hreadLocal.append hreadBinding).append hreadSign
  obtain ⟨C, j, call', hreadC, hj, haccExport, hpartsC, hsame, htext⟩ :=
    h.carry hopen hw (i := ⟨.assigning, p₃, _⟩) rfl (hi.reads hread) rfl
  have hsees := (hw.shows hj haccExport).sees
  obtain ⟨q, hq, hlist⟩ := (Option.any_eq_true _ _).1 hlist
  obtain ⟨q', hq', hseries⟩ := (Option.any_eq_true _ _).1 hseries
  have hreadE := (hreadC.climb hsees (hexpression.trans hq)).reduce hsees hlist (by decide) hassigned
  have hreadT := (hread.append hreadE).reduce hsees hstatement (by decide) hq'
  have hreadS := hreadT.reduce hsees hseries (by decide) hstating
  have hpartsBinding := Tree.parts_bindingList hname
  rw [hnameText] at hpartsBinding
  have hpartsE := Tree.parts_built (c := .expressionList) (l := .expressionList)
    (Tree.partsOf_singleton.2 (Tree.parts_wrap_spliced State.expressionChain hpartsC)) (by decide) rfl
  have hparts := Tree.partsOf_snoc (Tree.partsOf_snoc (Tree.partsOf_snoc
    (Tree.partsOf_singleton.2
      (Tree.parts_silent (show kw.terminal.isContent = false by rw [hkw]; rfl))) hpartsBinding)
    (Tree.parts_silent (show sign.terminal.isContent = false by rw [hsign]; rfl))) hpartsE
  exact ⟨_, j, call', _, _, hreadS, hj, haccExport, Tree.parts_spliced (Tree.partsOf_singleton.2
    (Tree.parts_built hparts (by decide) rfl)), hsame, htext⟩

end Call

/-! ## What is written behind the call -/

/-- The text of a link file behind the require call and a line separator: some declarations, the last
statement and what follows it. -/
def renderRest (separator trailer : List Char) : List Declaration → List Char
  | [] => Terminal.kwReturn.spelled ++ ([' '] ++ (moduleBinding ++ trailer))
  | d :: ds => d.render ++ (separator ++ renderRest separator trailer ds)

/-- The word that what is left of a link file starts with. -/
def restWord : List Declaration → Terminal
  | [] => .kwReturn
  | _ :: _ => .kwExport

section Rest

variable {separator trailer : List Char}

theorem separated_cons (separator t : List Char) {ts : List (List Char)} (h : ts ≠ []) :
    separated separator (t :: ts) = t ++ (separator ++ separated separator ts) := by
  obtain ⟨u, us, rfl⟩ := List.exists_cons_of_ne_nil h
  rfl

theorem separated_singleton (separator t : List Char) : separated separator [t] = t :=
  List.append_nil t

/-- A link file that is written starts with its header and the local assignment of the call. -/
theorem renderLink_eq (header call : List Char) (ds : List Declaration)
    (trailer separator : List Char) :
    renderLink header call ds trailer separator =
      header ++ (Terminal.kwLocal.spelled ++ ([' '] ++ (moduleBinding ++ ([' '] ++ (['='] ++ ([' '] ++
        (call ++ (separator ++ renderRest separator trailer ds)))))))) := by
  have hrest (ds : List Declaration) :
      separated separator (ds.map Declaration.render ++
        [Terminal.kwReturn.spelled ++ ([' '] ++ moduleBinding)]) ++ trailer =
          renderRest separator trailer ds := by
    induction ds with
    | nil =>
      rw [List.map_nil, List.nil_append, separated_singleton, renderRest]
      simp only [List.append_assoc]
    | cons d ds ih =>
      rw [List.map_cons, List.cons_append, separated_cons _ _ (by simp), renderRest, ← ih]
      simp only [List.append_assoc]
  have hrender : renderLink header call ds trailer separator = header ++
      separated separator (((Terminal.kwLocal.spelled ++ [' ']) ++ moduleBinding ++
        ([' '] ++ (['='] ++ [' '])) ++ call) :: (ds.map Declaration.render ++
          [Terminal.kwReturn.spelled ++ ([' '] ++ moduleBinding)])) ++ trailer := rfl
  rw [hrender, separated_cons _ _ (by simp), ← hrest]
  simp only [List.append_assoc]

theorem lineSeparator_mem (source : List Char) : lineSeparator source ∈ [['\n'], ['\r', '\n']] := by
  fun_induction lineSeparator source with
  | case1 => simp
  | case2 _ _ _ ih => exact ih
  | case3 => simp

theorem nextStatement_rest (h : separator ∈ [['\n'], ['\r', '\n']]) (trailer : List Char)
    (ds : List Declaration) :
    ∃ rest, renderRest separator trailer ds = (restWord ds).spelled ++ rest ∧
      NextStatement (separator ++ renderRest separator trailer ds) (restWord ds) rest := by
  have hnext {word : Terminal} (hword : word ∈ [Terminal.kwExport, .kwReturn]) (rest : List Char) :
      NextStatement (separator ++ (word.spelled ++ ([' '] ++ rest))) word ([' '] ++ rest) :=
    ⟨hword, ⟨separator, h, rfl⟩, by rintro c ⟨⟩; decide⟩
  cases ds with
  | nil => exact ⟨_, rfl, hnext (by simp) _⟩
  | cons d ds =>
    rw [renderRest, render_eq]
    exact ⟨_, rfl, hnext (by simp) _⟩

/-- Declarations that can be read where they are written into a link file. -/
def AllRereadable (m separator trailer : List Char) : List Declaration → Prop
  | [] => True
  | d :: ds => Rereadable m (separator ++ renderRest separator trailer ds) d ∧
      AllRereadable m separator trailer ds

theorem State.series_checked :
    initial.goto? .statements = some stating ∧
      ∀ la ∈ [Terminal.kwExport, .kwReturn], stated.reducesTo (some la) .statements .spliced 2 := by
  decide

section Declarations

variable {source m : List Char} {ds : List Declaration} {i j : Place} {S : Tree} {own : List Part}
  {span : Span}

/-- All declarations are read behind the local assignment, if their parameters are applicable. -/
theorem reads_declarations (hseparator : separator ∈ [['\n'], ['\r', '\n']])
    (hds : AllRereadable m separator trailer ds)
    (happlicable : ∀ d ∈ ds, d.isApplicable = true) (hi : i.In source)
    (hS : Reads .initial i [S] .stating j) (hj : j.rest = separator ++ renderRest separator trailer ds)
    (hacc : j.scanner.accepts (restWord ds) = true) (hparts : S.parts = .ok (own, some span)) :
    ∃ (S' : Tree) (k : Place) (ts : List TypeDeclaration) (span' : Span),
      Reads .initial i [S'] .stating k ∧ k.rest = separator ++ renderRest separator trailer [] ∧
      k.scanner.accepts .kwReturn = true ∧
      S'.parts = .ok (own ++ ts.map (.statement ∘ .typeDeclaration), some span') ∧
      (∀ t ∈ ts, t.exported = true) ∧
      ts.map (fun t => (Declaration.ofSyntax source t).written) = ds.map Declaration.written := by
  obtain ⟨hstating, hseries⟩ := State.series_checked
  induction ds generalizing S j own span with
  | nil => exact ⟨S, j, [], span, hS, hj, hacc, by rwa [List.map_nil, List.append_nil], by simp, rfl⟩
  | cons d ds ih =>
    rw [List.forall_mem_cons] at happlicable
    obtain ⟨tail, htail, hnext⟩ := nextStatement_rest hseparator trailer (d :: ds)
    obtain ⟨tail', -, hnext'⟩ := nextStatement_rest hseparator trailer ds
    obtain ⟨T, k, t, s, hT, hk, hacc', hpartsT, hexported, hwritten⟩ := reads_declaration hds.1
      happlicable.1 hnext' (hi.reads hS) (hnext.shows hj hacc) htail
    have hsees := (hnext'.shows hk hacc').sees
    have hS' := (hS.append hT).reduce hsees (hseries _ hnext'.mem) (by decide) hstating
    obtain ⟨span', hparts'⟩ := Tree.partsOf_snoc_some (Tree.partsOf_singleton.2 hparts) hpartsT
    obtain ⟨S'', k', ts, span'', hread, hk', haccReturn, hparts'', hall, hmap⟩ :=
      ih hds.2 happlicable.2 hS' hk hacc' (Tree.parts_spliced hparts')
    refine ⟨S'', k', t :: ts, span'', hread, hk', haccReturn, ?_, ?_, ?_⟩
    · rw [hparts'', List.append_assoc]
      rfl
    · exact List.forall_mem_cons.2 ⟨hexported, hall⟩
    · rw [List.map_cons, List.map_cons, hwritten, hmap]

/-- The machine gets stuck in declarations of which one has a parameter that is not applicable. -/
theorem stops_declarations (hseparator : separator ∈ [['\n'], ['\r', '\n']])
    (hds : AllRereadable m separator trailer ds)
    (hstop : ∃ d ∈ ds, d.isApplicable = false) (hi : i.In source)
    (hS : Reads .initial i [S] .stating j) (hj : j.rest = separator ++ renderRest separator trailer ds)
    (hacc : j.scanner.accepts (restWord ds) = true) (hparts : S.parts = .ok (own, some span)) :
    ∃ ts q k, Reads .initial i ts q k ∧ Stuck q k := by
  obtain ⟨hstating, hseries⟩ := State.series_checked
  induction ds generalizing S j own span with
  | nil => simp at hstop
  | cons d ds ih =>
    obtain ⟨tail, htail, hnext⟩ := nextStatement_rest hseparator trailer (d :: ds)
    obtain ⟨tail', -, hnext'⟩ := nextStatement_rest hseparator trailer ds
    have hi' := hi.reads hS
    have hshows := hnext.shows hj hacc
    cases hd : d.isApplicable with
    | false =>
      obtain ⟨ts, q, k, hts, hstuck⟩ := stops_declaration hds.1 hd hnext' hi' hshows htail
      exact ⟨_, q, k, hS.append hts, hstuck⟩
    | true =>
      obtain ⟨T, k, t, s, hT, hk, hacc', hpartsT, -⟩ :=
        reads_declaration hds.1 hd hnext' hi' hshows htail
      have hS' := (hS.append hT).reduce (hnext'.shows hk hacc').sees (hseries _ hnext'.mem) (by decide)
        hstating
      obtain ⟨span', hparts'⟩ := Tree.partsOf_snoc_some (Tree.partsOf_singleton.2 hparts) hpartsT
      exact ih hds.2 (by simpa [hd] using hstop) hS' hk hacc' (Tree.parts_spliced hparts')

end Declarations

namespace State

theorem return_checked :
    returning.climb none callable (spliced expressionChain) = returning.goto? .expression ∧
      (returning.goto? .expression).any (·.reducesTo none .expressionList .expressionList 1) = true ∧
      returning.goto? .expressionList = some (walk [.token .kwReturn, .category .expressionList]) ∧
      (walk [.token .kwReturn, .category .expressionList]).reducesTo none .lastStatement
        .returnStatement 2 = true ∧
      (initial.goto? .block).any (·.reducesTo none .chunk .spliced 1) = true := by
  decide

theorem returnedBinding_checked :
    stating.shift? .kwReturn = some returning ∧ returning.accepts .name = true ∧
      (∀ u ∈ returning.words, u.spelling? ≠ some moduleBinding) ∧
      returning.shift? .name = some named ∧
      returning.climb none named ((.nameExpression, .name) :: spliced calleeChain) =
        some callable ∧
      (stating.goto? .lastStatement).any (·.reducesTo none .block .block 2) = true := by
  decide

end State

/-- A statement that returns one expression is read at the end of a source. -/
theorem reads_lastStatement {q q' : State} {i j k : Place} {kw : Token} {X : Tree} {e : Expression}
    {s : Span} (hreturn : Reads q i [.leaf kw] .returning j) (hkw : kw.terminal = .kwReturn)
    (hX : Reads .returning j [X] .callable k) (hk : k.Sees none)
    (hparts : X.parts = .ok ([.expression e], some s)) (hgoto : q.goto? .lastStatement = some q') :
    ∃ L s', Reads q i [L] q' k ∧ L.parts = .ok ([.returned ⟨s', [e]⟩], some s') := by
  obtain ⟨hclimb, hlist, hgotoList, hlast, -⟩ := State.return_checked
  obtain ⟨q₁, hq₁, hlist⟩ := (Option.any_eq_true _ _).1 hlist
  have hreadE := (hX.climb hk (hclimb.trans hq₁)).reduce hk hlist (by decide) hgotoList
  have hreadL := (hreturn.append hreadE).reduce hk hlast (by decide) hgoto
  have hpartsE := Tree.parts_built (c := .expressionList) (l := .expressionList)
    (Tree.partsOf_singleton.2 (Tree.parts_wrap_spliced State.expressionChain hparts)) (by decide) rfl
  have hpartsL := Tree.parts_built (c := .lastStatement) (l := .returnStatement)
    (Tree.partsOf_snoc (Tree.partsOf_singleton.2
      (Tree.parts_silent (show kw.terminal.isContent = false by rw [hkw]; rfl))) hpartsE)
    (by decide) rfl
  exact ⟨_, _, hreadL, hpartsL⟩

/-- Trees that are reduced to a block at the end of a source are the block of the source. -/
theorem readsBlock_of_reads {source : List Char} {q : State} {j : Place} {ts : List Tree}
    {own : List Part} {span : Option Span} (h : Reads .initial (.start source) ts q j)
    (hj : j.Sees none) (hblock : q.reducesTo none .block .block ts.length = true)
    (hparts : Tree.partsOf ts = .ok (own, span)) : ReadsBlock source ts own := by
  obtain ⟨-, -, -, -, hchunk⟩ := State.return_checked
  obtain ⟨q', hq', hchunk⟩ := (Option.any_eq_true _ _).1 hchunk
  obtain ⟨r, hr, hfit⟩ := (Option.any_eq_true _ _).1 hchunk
  simp only [Bool.and_eq_true, decide_eq_true_eq] at hfit
  obtain ⟨s, hlook, hend⟩ := id hj
  exact ⟨⟨q', j, s, r, h.reduce hj hblock (by decide) hq', hlook, by rwa [hend], hfit.1.1⟩, span,
    hparts⟩

/-- The last statement is read, and with it the whole source. -/
theorem readsBlock_of_return {source : List Char} {j : Place} {S : Tree} {own : List Part}
    {span : Span} (hS : Reads .initial (.start source) [S] .stating j)
    (hparts : S.parts = .ok (own, some span)) (hend : EndsName trailer)
    (hgap : gap 0 trailer = trailer)
    (hj : j.Shows .kwReturn Terminal.kwReturn.spelled ([' '] ++ (moduleBinding ++ trailer))) :
    ∃ (ts : List Tree) (s s' : Span), ReadsBlock source ts
        (own ++ [Part.returned ⟨s, [.name s' moduleBinding]⟩]) ∧
      ∃ q k, Reads .initial (.start source) ts q k ∧ k.rest = trailer := by
  obtain ⟨hshift, haccName, hwords, hshiftName, hclimb, hblock⟩ := State.returnedBinding_checked
  obtain ⟨kw, p₁, hreadReturn, hkw, -⟩ := hj.reads hshift
  have hshows : Place.Shows ⟨.returning, p₁, [' '] ++ (moduleBinding ++ trailer)⟩ .name moduleBinding
      trailer := shows_name rfl blank_checked rfl hend haccName hwords
  obtain ⟨name, p₂, hreadName, hname, hnameText⟩ := hshows.reads hshiftName
  have hsees : Place.Sees ⟨.named, p₂, trailer⟩ none :=
    ⟨_, Place.look_eq_end_iff.2 ⟨hgap, rfl, rfl⟩, rfl⟩
  obtain ⟨q, hq, hblock⟩ := (Option.any_eq_true _ _).1 hblock
  obtain ⟨L, s, hreadL, hpartsL⟩ := reads_lastStatement hreadReturn hkw
    (hreadName.climb hsees hclimb) hsees (Tree.parts_calleeName hname) hq
  rw [hnameText] at hpartsL
  have hread := hS.append hreadL
  exact ⟨_, s, _, readsBlock_of_reads hread hsees hblock
    (Tree.partsOf_snoc (Tree.partsOf_singleton.2 hparts) hpartsL), _, _, hread, rfl⟩

end Rest

end TypedLinks.Luau
