import TypedLinks.Proofs.Lexing.Languages
import TypedLinks.Proofs.Lexing.Literals
import TypedLinks.Proofs.Link.Written

/-!
# Written require paths

A path is written as an anchor and steps from it, each a field or a text as a key. Between the
parentheses of a require call that is returned it is read back, step by step: before each step the
machine has read what precedes it as one expression that can be indexed, and the step makes that the
base of the next one. Every identifier can be a field, a keyword too, and every text a key.
-/

namespace TypedLinks

open Luau

/-- A step of a require path as it is written. -/
inductive PathStep where
  | field (name : Name) (isName : name ∈ Lexeme.names)
  | key (text : List Char)

namespace PathStep

/-- The text of a step. -/
def written : PathStep → List Char
  | field name _ => '.' :: name
  | key text => '[' :: (quotedLiteral text ++ [']'])

/-- The name that a step leads to. -/
def component : PathStep → Text
  | field name _ => Text.ofChars name
  | key text => (Text.ofChars text).trim

end PathStep

/-- The text of a path and of the parenthesis behind it. -/
def pathRest (steps : List PathStep) : List Char := steps.flatMap PathStep.written ++ [')']

/-- A source that returns the require call of a path. -/
def returnRequire (anchor : Name) (steps : List PathStep) : List Char :=
  "return require(".toList ++ (anchor ++ pathRest steps)

/-- The anchors of a path. -/
def anchors : List Name := ["script".toList, "game".toList]

theorem pathRest_cons (step : PathStep) (steps : List PathStep) :
    pathRest (step :: steps) = step.written ++ pathRest steps := by
  rw [pathRest, List.flatMap_cons, List.append_assoc]
  rfl

/-- Behind a path or a part of it stands another step or the parenthesis. -/
theorem head_pathRest (steps : List PathStep) :
    ∃ c ∈ ['.', '[', ')'], (pathRest steps).head? = some c := by
  cases steps with
  | nil => exact ⟨')', by simp, rfl⟩
  | cons step steps =>
    cases step with
    | field name _ => exact ⟨'.', by simp, rfl⟩
    | key text => exact ⟨'[', by simp, rfl⟩

namespace Luau

open Grammar Lexeme

theorem endsName_pathRest (steps : List PathStep) : EndsName (pathRest steps) := by
  obtain ⟨c, hc, hhead⟩ := head_pathRest steps
  intro d hd
  obtain rfl := Option.some.inj (hhead.symm.trans hd)
  exact List.forall_iff_forall_mem.1 (show List.Forall (isNamePart · = false) ['.', '[', ')'] from
    by decide) _ hc

/-! ## Names, brackets and texts -/

/-- The words of the language of names are those that are read as names. -/
theorem mem_names_iff {w : List Char} : w ∈ names ↔ IsName w := by
  constructor
  · intro h
    obtain ⟨a, ⟨c, hc, rfl⟩, b, hb, rfl⟩ := Language.mem_mul.1 h
    have hparts : ∀ d ∈ b, isNamePart d = true := by
      obtain ⟨ws, rfl, hws⟩ := Language.mem_kstar.1 hb
      intro d hd
      obtain ⟨w, hw, hd⟩ := List.mem_flatten.1 hd
      obtain ⟨e, he, rfl⟩ := hws w hw
      rwa [List.mem_singleton.1 hd]
    have hrun : run isNamePart b = b.length := by
      rw [run, List.takeWhile_eq_self_iff.2 hparts]
    change name? (c :: b) = some (b.length + 1)
    rw [name?, if_pos hc, hrun, Nat.add_comm]
  · intro h
    have hmem := mem_names h
    rwa [List.take_length] at hmem

section Shows

variable {i : Place} {t : Terminal} {c : Char} {rest : List Char}

/-- A bracket comes next where it is accepted, if it opens no long bracket. -/
theorem shows_bracket (ht : (t, c) ∈ brackets) (hrest : i.rest = [c] ++ rest)
    (hacc : i.scanner.accepts t = true)
    (hlong : c = '[' → ∀ d, rest.head? = some d → d ≠ '[' ∧ d ≠ '=') : i.Shows t [c] rest := by
  obtain ⟨-, -, -, hspace, hother, -⟩ := brackets_checked _ ht
  refine shows_of_scan (g := []) hrest (gap_blank (by simp) ?_) (scan_bracket ht hacc hlong)
  refine startsToken_of_head (c := c) rfl hspace ?_
  rintro rfl
  exact hother (by simp)

/-- A text between quotes comes next where strings are accepted. -/
theorem shows_quotedLiteral (text : List Char) (hrest : i.rest = quotedLiteral text ++ rest)
    (hacc : i.scanner.accepts .quoted = true) : i.Shows .quoted (quotedLiteral text) rest :=
  shows_of_scan (g := []) hrest
    (gap_blank (by simp) (startsToken_of_head (c := '"') rfl (by decide) (by decide)))
    (scan_quotedLiteral hacc text rest)

/-- A dot comes next in front of a name. -/
theorem shows_dot {name : Name} (hname : IsName name) (hrest : i.rest = '.' :: (name ++ rest))
    (hacc : i.scanner.accepts .dot = true) : i.Shows .dot ['.'] (name ++ rest) := by
  refine shows_symbol (g := []) hrest (by simp) rfl rfl hacc fun c hc => ?_
  obtain ⟨d, cs, rfl, hstart, -⟩ := hname.cons
  obtain rfl := Option.some.inj hc
  have hpoint : d ≠ '.' := by
    rintro rfl
    exact absurd hstart (by decide)
  simp [mayFollow, hpoint, isDigit_of_isNameStart hstart]

/-- A left bracket comes next in front of a text between quotes. -/
theorem shows_leftBracket {text : List Char} (hrest : i.rest = '[' :: (quotedLiteral text ++ rest))
    (hacc : i.scanner.accepts .leftBracket = true) :
    i.Shows .leftBracket ['['] (quotedLiteral text ++ rest) := by
  refine shows_bracket (by simp [brackets]) hrest hacc fun _ d hd => ?_
  obtain rfl := Option.some.inj hd
  decide

end Shows

/-! ## States of a path -/

namespace State

/-- The state behind the parenthesis of a call. -/
def calling : State := walk [.token .kwReturn, .category .suffixedExpression, .token .leftParen]

/-- The state behind a dot. -/
def dotted : State := walk [.token .kwReturn, .category .suffixedExpression, .token .dot]

/-- The state behind the name of a field. -/
def fielded : State :=
  walk [.token .kwReturn, .category .suffixedExpression, .token .dot, .token .name]

/-- The state behind a left bracket. -/
def keying : State := walk [.token .kwReturn, .category .suffixedExpression, .token .leftBracket]

/-- The state behind a string. -/
def quoting : State := walk [.token .kwReturn, .category .suffixedExpression, .token .leftBracket,
  .token .quoted]

/-- The state behind a key. -/
def keyed : State := walk [.token .kwReturn, .category .suffixedExpression, .token .leftBracket,
  .category .expression]

/-- The state behind a right bracket. -/
def closed : State := walk [.token .kwReturn, .category .suffixedExpression, .token .leftBracket,
  .category .expression, .token .rightBracket]

/-- The state behind the expressions between the parentheses of a call. -/
def listed : State := walk [.token .kwReturn, .category .suffixedExpression, .token .leftParen,
  .category .expressionList]

/-- The state behind the arguments of a call between their parentheses. -/
def argued : State := walk [.token .kwReturn, .category .suffixedExpression, .token .leftParen,
  .category .expressionList, .token .rightParen]

/-- What may follow a part of a path. -/
def pathMarks : List Terminal := [.dot, .leftBracket, .rightParen]

theorem require_checked :
    initial.accepts .kwReturn = true ∧ initial.shift? .kwReturn = some returning ∧
      returning.accepts .name = true ∧
      (∀ u ∈ returning.words, u.spelling? ≠ some "require".toList) ∧
      named.accepts .leftParen = true ∧
      returning.climb (some .leftParen) named ((.nameExpression, .name) :: spliced calleeChain) =
        some callable ∧
      callable.shift? .leftParen = some calling := by
  decide

theorem anchor_checked :
    calling.accepts .name = true ∧
      (∀ a ∈ anchors, name? a = some a.length ∧ ∀ u ∈ calling.words, u.spelling? ≠ some a) ∧
      calling.shift? .name = some named ∧
      ∀ la ∈ pathMarks, named.accepts la = true ∧
        calling.climb (some la) named ((.nameExpression, .name) :: spliced calleeChain) =
          some callable := by
  decide

theorem field_checked :
    callable.shift? .dot = some dotted ∧ dotted.accepts .name = true ∧ dotted.words = [] ∧
      dotted.shift? .name = some fielded ∧ calling.goto? .suffixedExpression = some callable ∧
      ∀ la ∈ pathMarks, fielded.reducesTo (some la) .suffixedExpression .fieldIndex 3 = true := by
  decide

theorem key_checked :
    callable.shift? .leftBracket = some keying ∧ keying.accepts .quoted = true ∧
      keying.shift? .quoted = some quoting ∧ quoting.accepts .rightBracket = true ∧
      keying.climb (some .rightBracket) quoting ((.string, .string) :: spliced expressionChain) =
        some keyed ∧
      keyed.shift? .rightBracket = some closed ∧
      ∀ la ∈ pathMarks, closed.reducesTo (some la) .suffixedExpression .keyIndex 4 = true := by
  decide

theorem arguments_checked :
    calling.climb (some .rightParen) callable (spliced expressionChain) =
        calling.goto? .expression ∧
      (calling.goto? .expression).any (·.reducesTo (some .rightParen) .expressionList
        .expressionList 1) = true ∧
      calling.goto? .expressionList = some listed ∧ listed.shift? .rightParen = some argued ∧
      argued.reducesTo none .callArguments .parenthesizedArguments 3 = true ∧
      callable.goto? .callArguments = some called ∧
      called.reducesTo none .suffixedExpression .call 2 = true ∧
      returning.goto? .suffixedExpression = some callable ∧
      (initial.goto? .lastStatement).any (·.reducesTo none .block .block 1) = true := by
  decide

end State

/-! ## Reading a path -/

/-- Behind the parenthesis of a call, a tree is read up to a place whose expression spells a path and
can be indexed. -/
structure ReadsPath (i : Place) (S : Tree) (j : Place) (path : RequirePath) : Prop where
  reads : Reads .calling i [S] .callable j
  accepts : ∀ la ∈ State.pathMarks, j.scanner.accepts la = true
  parts : ∃ e span, S.parts = .ok ([.expression e], some span) ∧
    RequirePath.ofExpression e = .ok path

section Steps

variable {i j : Place} {S : Tree} {path : RequirePath}

/-- Behind a part of a path the machine sees a step or the parenthesis. -/
theorem sees_pathRest {steps : List PathStep} (hrest : i.rest = pathRest steps)
    (hacc : ∀ la ∈ State.pathMarks, i.scanner.accepts la = true) :
    ∃ la ∈ State.pathMarks, i.Sees (some la) := by
  cases steps with
  | nil =>
    have hshows : i.Shows .rightParen [')'] [] :=
      shows_bracket (by simp [brackets]) hrest (hacc _ (by simp [State.pathMarks])) (by simp)
    exact ⟨.rightParen, by simp [State.pathMarks], hshows.sees⟩
  | cons step steps =>
    rw [pathRest_cons] at hrest
    cases step with
    | field name isName =>
      have hshows := shows_dot (mem_names_iff.1 isName) hrest
        (hacc _ (by simp [State.pathMarks]))
      exact ⟨.dot, by simp [State.pathMarks], hshows.sees⟩
    | key text =>
      rw [PathStep.written, List.cons_append, List.append_assoc] at hrest
      have hshows := shows_leftBracket hrest (hacc _ (by simp [State.pathMarks]))
      exact ⟨.leftBracket, by simp [State.pathMarks], hshows.sees⟩

/-- A field is read behind a path, which then ends with its name. -/
theorem ReadsPath.field (h : ReadsPath i S j path) {name : Name} (hname : IsName name)
    {steps : List PathStep} (hrest : j.rest = '.' :: (name ++ pathRest steps)) :
    ∃ S' k, ReadsPath i S' k (path ++ [Text.ofChars name]) ∧ k.rest = pathRest steps := by
  obtain ⟨hshiftDot, haccName, hwords, hshiftName, hgoto, hreduce⟩ := State.field_checked
  obtain ⟨e, span, hparts, hpath⟩ := h.parts
  obtain ⟨dot, p, hreadDot, hdot, -⟩ :=
    (shows_dot hname hrest (h.accepts _ (by simp [State.pathMarks]))).reads hshiftDot
  have hshows : Place.Shows ⟨.dotted, p, name ++ pathRest steps⟩ .name name (pathRest steps) :=
    shows_name (g := []) rfl (by simp) hname (endsName_pathRest steps) haccName
      (by rw [hwords]; simp)
  obtain ⟨tok, p', hreadName, htok, htext⟩ := hshows.reads hshiftName
  have hacc : ∀ la ∈ State.pathMarks, State.fielded.accepts la = true := fun la hla =>
    State.accepts_of_reducesTo (hreduce la hla)
  obtain ⟨la, hla, hsees⟩ := sees_pathRest (i := ⟨.fielded, p', pathRest steps⟩) rfl hacc
  have hread := ((h.reads.append hreadDot).append hreadName).reduce hsees (hreduce la hla)
    (by decide) hgoto
  obtain ⟨span', hown⟩ := Tree.partsOf_snoc_some (Tree.partsOf_snoc (Tree.partsOf_singleton.2 hparts)
    (Tree.parts_silent (show dot.terminal.isContent = false by rw [hdot]; rfl)))
    (Tree.parts_content (show tok.terminal.isContent = true by rw [htok]; rfl))
  refine ⟨_, _, ⟨hread, hacc, .field span' e tok.text, span',
    Tree.parts_built hown (by decide) rfl, ?_⟩, rfl⟩
  rw [RequirePath.ofExpression, hpath, htext]
  rfl

/-- A text as a key is read behind a path, which then ends with the text. -/
theorem ReadsPath.key (h : ReadsPath i S j path) (text : List Char) {steps : List PathStep}
    (hrest : j.rest = '[' :: (quotedLiteral text ++ ([']'] ++ pathRest steps))) :
    ∃ S' k, ReadsPath i S' k (path ++ [(Text.ofChars text).trim]) ∧ k.rest = pathRest steps := by
  obtain ⟨hshiftLeft, haccQuoted, hshiftQuoted, haccRight, hclimb, hshiftRight, hreduce⟩ :=
    State.key_checked
  obtain ⟨-, -, -, -, hgoto, -⟩ := State.field_checked
  obtain ⟨e, span, hparts, hpath⟩ := h.parts
  obtain ⟨left, p, hreadLeft, hleft, -⟩ :=
    (shows_leftBracket hrest (h.accepts _ (by simp [State.pathMarks]))).reads hshiftLeft
  have hshows : Place.Shows ⟨.keying, p, quotedLiteral text ++ ([']'] ++ pathRest steps)⟩ .quoted
      (quotedLiteral text) ([']'] ++ pathRest steps) := shows_quotedLiteral text rfl haccQuoted
  obtain ⟨tok, p', hreadQuoted, htok, htext⟩ := hshows.reads hshiftQuoted
  have hclose : Place.Shows ⟨.quoting, p', [']'] ++ pathRest steps⟩ .rightBracket [']']
      (pathRest steps) := shows_bracket (by simp [brackets]) rfl haccRight (by simp)
  have hreadKey := hreadQuoted.climb hclose.sees hclimb
  obtain ⟨right, p'', hreadRight, hright, -⟩ := hclose.reads hshiftRight
  have hacc : ∀ la ∈ State.pathMarks, State.closed.accepts la = true := fun la hla =>
    State.accepts_of_reducesTo (hreduce la hla)
  obtain ⟨la, hla, hsees⟩ := sees_pathRest (i := ⟨.closed, p'', pathRest steps⟩) rfl hacc
  have hread := (((h.reads.append hreadLeft).append hreadKey).append hreadRight).reduce hsees
    (hreduce la hla) (by decide) hgoto
  have hpartsKey : (Tree.wrap (.leaf tok) ((.string, .string) :: spliced State.expressionChain)).parts
      = .ok ([.expression (.string tok.span (Text.ofChars text))], some tok.span) := by
    refine Tree.parts_wrap_spliced _ (Tree.parts_built (Tree.partsOf_singleton.2
      (Tree.parts_content (show tok.terminal.isContent = true by rw [htok]; rfl))) (by decide) ?_)
    change stringExpression tok.span tok.text = _
    rw [stringExpression, htext, StringLiteral.decode_quotedLiteral]
  obtain ⟨span', hown⟩ := Tree.partsOf_snoc_some (Tree.partsOf_snoc (Tree.partsOf_snoc
    (Tree.partsOf_singleton.2 hparts)
    (Tree.parts_silent (show left.terminal.isContent = false by rw [hleft]; rfl))) hpartsKey)
    (Tree.parts_silent (show right.terminal.isContent = false by rw [hright]; rfl))
  refine ⟨_, _, ⟨hread, hacc, .key span' e (.string tok.span (Text.ofChars text)), span',
    Tree.parts_built hown (by decide) rfl, ?_⟩, rfl⟩
  rw [RequirePath.ofExpression, hpath]
  rfl

/-- A step is read behind a path. -/
theorem ReadsPath.step (h : ReadsPath i S j path) {step : PathStep} {steps : List PathStep}
    (hrest : j.rest = pathRest (step :: steps)) :
    ∃ S' k, ReadsPath i S' k (path ++ [step.component]) ∧ k.rest = pathRest steps := by
  rw [pathRest_cons] at hrest
  cases step with
  | field name isName => exact h.field (mem_names_iff.1 isName) hrest
  | key text =>
    rw [PathStep.written, List.cons_append, List.append_assoc] at hrest
    exact h.key text hrest

/-- All steps are read behind a path, up to the parenthesis. -/
theorem ReadsPath.steps (h : ReadsPath i S j path) {steps : List PathStep}
    (hrest : j.rest = pathRest steps) :
    ∃ S' k, ReadsPath i S' k (path ++ steps.map PathStep.component) ∧ k.rest = pathRest [] := by
  induction steps generalizing S j path with
  | nil => exact ⟨S, j, by rwa [List.map_nil, List.append_nil], hrest⟩
  | cons step steps ih =>
    obtain ⟨S', k, h', hrest'⟩ := h.step hrest
    obtain ⟨S'', k', h'', hrest''⟩ := ih h' hrest'
    rw [List.append_assoc] at h''
    exact ⟨S'', k', h'', hrest''⟩

/-- An anchor is a path. -/
theorem readsPath_anchor {a : Name} (ha : a ∈ anchors) {steps : List PathStep}
    (hscanner : i.scanner = .calling) (hrest : i.rest = a ++ pathRest steps) :
    ∃ S j, ReadsPath i S j [Text.ofChars a] ∧ j.rest = pathRest steps := by
  obtain ⟨haccName, hanchors, hshift, hmarks⟩ := State.anchor_checked
  obtain ⟨hname, hwords⟩ := hanchors a ha
  have hshows : i.Shows .name a (pathRest steps) :=
    shows_name (g := []) hrest (by simp) hname (endsName_pathRest steps) (by rwa [hscanner])
      (by rwa [hscanner])
  obtain ⟨tok, p, hread, htok, htext⟩ := hshows.reads hshift
  have hacc : ∀ la ∈ State.pathMarks, State.named.accepts la = true := fun la hla =>
    (hmarks la hla).1
  obtain ⟨la, hla, hsees⟩ := sees_pathRest (i := ⟨.named, p, pathRest steps⟩) rfl hacc
  refine ⟨_, _, ⟨hread.climb hsees (hmarks la hla).2, hacc, _, _, Tree.parts_calleeName htok, ?_⟩,
    rfl⟩
  rw [RequirePath.ofExpression, htext]

end Steps

/-! ## The require call -/

/-- What stands between the parentheses of a call is read as its only argument. -/
theorem ReadsPath.reads_arguments {i j k : Place} {S : Tree} {left : Token} {path : RequirePath}
    (h : ReadsPath j S k path) (hleft : left.terminal = .leftParen)
    (hread : Reads .callable i [.leaf left] .calling j) (hrest : k.rest = pathRest []) :
    ∃ ts l e span, Reads .callable i ts .argued l ∧ ts.length = 3 ∧ l.rest = [] ∧
      Tree.partsOf ts = .ok ([.expressions [e]], some span) ∧
      RequirePath.ofExpression e = .ok path := by
  obtain ⟨hclimb, hlist, hgoto, hshift, -⟩ := State.arguments_checked
  obtain ⟨e, span, hparts, hpath⟩ := h.parts
  have hclose : k.Shows .rightParen [')'] [] :=
    shows_bracket (by simp [brackets]) hrest (h.accepts _ (by simp [State.pathMarks])) (by simp)
  obtain ⟨q, hq, hlist⟩ := (Option.any_eq_true _ _).1 hlist
  have hreadE := (h.reads.climb hclose.sees (hclimb.trans hq)).reduce hclose.sees hlist (by decide)
    hgoto
  obtain ⟨right, p, hreadRight, hright, -⟩ := hclose.reads hshift
  have hpartsE := Tree.parts_built (c := .expressionList) (l := .expressionList)
    (Tree.partsOf_singleton.2 (Tree.parts_wrap_spliced State.expressionChain hparts)) (by decide) rfl
  obtain ⟨span', hown⟩ := Tree.partsOf_snoc_some (Tree.partsOf_snoc (Tree.partsOf_singleton.2
    (Tree.parts_silent (show left.terminal.isContent = false by rw [hleft]; rfl))) hpartsE)
    (Tree.parts_silent (show right.terminal.isContent = false by rw [hright]; rfl))
  exact ⟨_, _, e, span', (hread.append hreadE).append hreadRight, rfl, rfl, hown, hpath⟩

/-- The name `require` is read where it is returned, and then the parenthesis behind it. -/
theorem reads_require {i : Place} {rest : List Char} (hscanner : i.scanner = .returning)
    (hrest : i.rest = [' '] ++ ("require".toList ++ (['('] ++ rest))) :
    ∃ C left j k s, Reads .returning i [C] .callable j ∧ Reads .callable j [.leaf left] .calling k ∧
      C.parts = .ok ([.expression (.name s "require".toList)], some s) ∧
      left.terminal = .leftParen ∧ k.scanner = .calling ∧ k.rest = rest := by
  obtain ⟨-, -, haccName, hwords, haccLeft, hclimb, hshiftLeft⟩ := State.require_checked
  have hshows : i.Shows .name "require".toList (['('] ++ rest) :=
    shows_name hrest blank_checked rfl (by rintro c ⟨⟩; decide) (by rwa [hscanner])
      (by rwa [hscanner])
  obtain ⟨tok, p, hreadName, htok, htext⟩ :=
    hshows.reads (State.callable_checked .returning (by simp)).1
  have hopen : Place.Shows ⟨.named, p, ['('] ++ rest⟩ .leftParen ['('] rest :=
    shows_bracket (by simp [brackets]) rfl haccLeft (by simp)
  obtain ⟨left, p', hreadLeft, hleft, -⟩ := hopen.reads hshiftLeft
  have hparts := Tree.parts_calleeName htok
  rw [htext] at hparts
  exact ⟨_, left, _, _, _, hreadName.climb hopen.sees hclimb, hreadLeft, hparts, hleft, rfl, rfl⟩

/-- The require call of a written path is read behind `return`, up to the end of the source. -/
theorem reads_requireCall {i : Place} {a : Name} (ha : a ∈ anchors) {steps : List PathStep}
    (hscanner : i.scanner = .returning)
    (hrest : i.rest = [' '] ++ ("require".toList ++ (['('] ++ (a ++ pathRest steps)))) :
    ∃ C j e span, Reads .returning i [C] .callable j ∧ j.Sees none ∧
      C.parts = .ok ([.expression e], some span) ∧
      RequirePath.ofCall e = .ok (Text.ofChars a :: steps.map PathStep.component) := by
  obtain ⟨-, -, -, -, hargued, hgotoCalled, hcalled, hgoto, -⟩ := State.arguments_checked
  obtain ⟨N, left, j, k, s, hreadN, hreadLeft, hpartsN, hleft, hkscanner, hkrest⟩ :=
    reads_require hscanner hrest
  obtain ⟨S, l, hanchor, hlrest⟩ := readsPath_anchor ha hkscanner hkrest
  obtain ⟨S', l', hpath, hlrest'⟩ := hanchor.steps hlrest
  obtain ⟨ts, end', e, span, hreadTs, hlength, hend, hpartsTs, he⟩ :=
    hpath.reads_arguments hleft hreadLeft hlrest'
  have hgap : end'.gap = end'.rest := by
    rw [Place.gap, hend]
    rfl
  have hsees : end'.Sees none := ⟨_, Place.look_eq_end_iff.2 ⟨hgap, rfl, rfl⟩, rfl⟩
  have hreadA := hreadTs.reduce hsees (by rw [hlength]; exact hargued) (by decide) hgotoCalled
  have hreadC := (hreadN.append hreadA).reduce hsees hcalled (by decide) hgoto
  have hpartsA := Tree.parts_built (c := .callArguments) (l := .parenthesizedArguments) hpartsTs
    (by decide) rfl
  have hpartsC := Tree.parts_built (c := .suffixedExpression) (l := .call)
    (Tree.partsOf_snoc (Tree.partsOf_singleton.2 hpartsN) hpartsA) (by decide) rfl
  refine ⟨_, end', _, _, hreadC, hsees, hpartsC, ?_⟩
  simpa [RequirePath.ofCall, RequirePath.isRequire] using he

end Luau

open Luau in
/-- Every path that starts at an anchor can be written and read back: the source that returns its
require call has a chunk, which returns one expression, and that is the call of the path. A text that
was a key is trimmed. -/
theorem written_path_read {file : Text} (hfile : file ≠ []) {anchor : Name}
    (hanchor : anchor ∈ anchors) (steps : List PathStep) :
    ∃ chunk last e, parse file (returnRequire anchor steps) = .ok chunk ∧
      chunk.block.last = some last ∧ last.expressions = [e] ∧
      RequirePath.ofCall e = .ok (Text.ofChars anchor :: steps.map PathStep.component) := by
  obtain ⟨haccReturn, hshiftReturn, -⟩ := State.require_checked
  obtain ⟨-, -, -, -, -, -, -, -, hblock⟩ := State.arguments_checked
  have hreturn : (Place.start (returnRequire anchor steps)).Shows .kwReturn Terminal.kwReturn.spelled
      ([' '] ++ ("require".toList ++ (['('] ++ (anchor ++ pathRest steps)))) :=
    shows_keyword (g := []) rfl (by simp) rfl (by rintro c ⟨⟩; decide) rfl haccReturn
  obtain ⟨kw, p, hreadReturn, hkw, -⟩ := hreturn.reads hshiftReturn
  obtain ⟨C, j, e, span, hreadC, hsees, hpartsC, hcall⟩ :=
    reads_requireCall (i := ⟨.returning, p, _⟩) hanchor rfl rfl
  obtain ⟨q, hq, hblock⟩ := (Option.any_eq_true _ _).1 hblock
  obtain ⟨L, s, hreadL, hpartsL⟩ := reads_lastStatement hreadReturn hkw hreadC hsees hpartsC hq
  have hreads := readsBlock_of_reads hreadL hsees hblock (Tree.partsOf_singleton.2 hpartsL)
  exact ⟨_, ⟨s, [e]⟩, e, parse_eq_ok_iff.2 ⟨_, _, hreads, fun h => absurd h hfile, rfl⟩, rfl, rfl,
    hcall⟩

/-- A path with a keyword as a field and a key of quotes, brackets and a line feed. -/
def oddPath : List PathStep :=
  [.field "end".toList (Luau.mem_names_iff.2 rfl), .key " \"]] --[[\\\n'] ".toList]

theorem oddPath_read :
    ("Link.lua" : Text) ≠ [] ∧ "game".toList ∈ anchors ∧ ∃ chunk last e,
      Luau.parse "Link.lua" (returnRequire "game".toList oddPath) = .ok chunk ∧
        chunk.block.last = some last ∧ last.expressions = [e] ∧
        RequirePath.ofCall e = .ok ["game", "end", "\"]] --[[\\\n']"] := by
  refine ⟨by decide, by decide, ?_⟩
  exact written_path_read (by decide) (by decide) oddPath

end TypedLinks
