import TypedLinks.Forwarding.Forward
import TypedLinks.Proofs.Forwarding.Carried

/-!
# Reading rendered parameters

The machine reads the parameters of a declaration where they are rendered between their brackets,
each with the default that it keeps. What it builds has the names, the types and the texts of the
parameters.
-/

namespace TypedLinks

open Luau

/-- What is written of a parameter: its name, whether it is a pack, and its default, as a type without
a place and as a text. -/
def Parameter.written (p : Parameter) : Name × Bool × Option (TypeNode × List Char) :=
  (p.name, p.variadic, p.default.map fun e => (e.type.unplaced, e.text))

namespace Luau

open Grammar Lexeme

namespace State

/-! ## States of a declaration -/

/-- The symbols of a declaration up to its name. -/
def declarationStart : List GrammarSymbol := [.token .kwExport, .token .kwType, .token .name]

/-- The symbols of a declaration up to the name of a parameter. -/
def parameterStart : List GrammarSymbol :=
  declarationStart ++ ([.token .less, .token .name] : List GrammarSymbol)

/-- The state behind a parameter, or its dots. -/
def parameterNamed (variadic : Bool) : State :=
  if variadic then walkOn parameterStart [.token .ellipsis] else walk parameterStart

/-- The state behind a default. -/
def defaulted (variadic : Bool) : State :=
  if variadic then walkOn parameterStart [.token .ellipsis, .token .equals, .category .typeOrPack]
  else walkOn parameterStart [.token .equals, .category .typeOrPack]

end State

/-- The states of a list whose first element follows some symbols. -/
def ListStates.behind (start : List GrammarSymbol) (element series : Category) : ListStates where
  element := element
  series := series
  first := .walk start
  one := .walkOn start [.category element]
  comma := .walkOn start [.category element, .token .comma]
  second := .walkOn start [.category element, .token .comma, .category element]
  more := .walkOn start [.category element, .category series]
  furtherComma := .walkOn start [.category element, .category series, .token .comma]
  third := .walkOn start [.category element, .category series, .token .comma, .category element]

/-- The states of the parameters of a declaration. -/
def parameterStates : ListStates :=
  .behind (State.declarationStart ++ ([.token .less] : List GrammarSymbol)) .genericParameter
    .furtherGenericParameters

theorem parameterStates_valid : parameterStates.Valid := by
  constructor <;> decide

/-! ## Parameters -/

/-- The construct of a parameter. -/
def parameterConstruct (variadic : Bool) : Construct :=
  if variadic then .genericPackParameter else .genericParameter

/-- How many trees a parameter without a default is made of. -/
def parameterSize (variadic : Bool) : Nat := if variadic then 2 else 1

namespace State

theorem parameter_bases_checked :
    ∀ b ∈ parameterStates.bases, b.accepts .name = true ∧ b.words = [] ∧
      b.shift? .name = some (parameterNamed false) := by
  decide

theorem parameter_dots_checked :
    (parameterNamed false).accepts .ellipsis = true ∧
      (parameterNamed false).shift? .ellipsis = some (parameterNamed true) := by
  decide

theorem parameter_named_checked :
    ∀ variadic, (parameterNamed variadic).accepts .equals = true ∧
      (parameterNamed variadic).shift? .equals = some (defaulting variadic) ∧
      (defaulting variadic).goto? .typeOrPack = some (defaulted variadic) ∧
      ∀ la ∈ writtenFollowers, (parameterNamed variadic).accepts la = true ∧
        (parameterNamed variadic).reducesTo (some la) .genericParameter
          (parameterConstruct variadic) (parameterSize variadic) = true ∧
        (defaulted variadic).reducesTo (some la) .genericParameter
          (parameterConstruct variadic) (parameterSize variadic + 2) = true := by
  decide

end State

section Parameters

variable {source name g rest : List Char} {variadic : Bool} {i : Place}

/-- What may follow the name of a parameter. -/
theorem endsName_dots (rest : List Char) : EndsName ("...".toList ++ rest) := by
  rintro c hc
  cases hc
  decide

theorem IsFollower.endsName {next : Terminal × List Char} (h : IsFollower next) :
    EndsName (next.1.spelled ++ next.2) := by
  obtain ⟨la, rest⟩ := next
  have hla := h.mem
  simp only [writtenFollowers, List.mem_cons, List.not_mem_nil, or_false] at hla
  rintro c hc
  rcases hla with rfl | rfl <;> cases hc <;> decide

/-- The name of a parameter and its dots are read. -/
theorem reads_parameterName {b : State} (hb : b ∈ parameterStates.bases) (hscanner : i.scanner = b)
    (hg : ∀ c ∈ g, isSpace c = true) (hname : IsName name) (hend : EndsName rest)
    (hrest : i.rest = g ++ ((if variadic then name ++ "...".toList else name) ++ rest)) :
    ∃ front tok p s, Reads b i front (.parameterNamed variadic)
        ⟨.parameterNamed variadic, p, rest⟩ ∧ front.length = parameterSize variadic ∧
      Tree.partsOf front = .ok ([.token tok], some s) ∧ tok.text = name := by
  obtain ⟨hacc, hwords, hshift⟩ := State.parameter_bases_checked b hb
  have hcontent {tok : Token} (h : tok.terminal = .name) : tok.terminal.isContent = true := by
    rw [h]
    rfl
  cases variadic with
  | false =>
    have hshows : i.Shows .name name rest := shows_name hrest hg hname hend (by rw [hscanner, hacc])
      (by rw [hscanner, hwords]; simp)
    obtain ⟨tok, p, hread, hterminal, htext⟩ := hshows.reads hshift
    exact ⟨[.leaf tok], tok, p, tok.span, hread, rfl,
      Tree.partsOf_singleton.2 (Tree.parts_content (hcontent hterminal)), htext⟩
  | true =>
    have hshows : i.Shows .name name ("...".toList ++ rest) := by
      refine shows_name ?_ hg hname (endsName_dots rest) (by rw [hscanner, hacc])
        (by rw [hscanner, hwords]; simp)
      rw [hrest, if_pos rfl, List.append_assoc]
    obtain ⟨tok, p, hread, hterminal, htext⟩ := hshows.reads hshift
    have hdots : Place.Shows ⟨.parameterNamed false, p, "...".toList ++ rest⟩ .ellipsis
        "...".toList rest := shows_symbol (g := []) rfl (by simp) (by decide) rfl
      State.parameter_dots_checked.1 (fun _ _ => rfl)
    obtain ⟨dots, p', hread', hterminal', -⟩ := hdots.reads State.parameter_dots_checked.2
    refine ⟨[.leaf tok, .leaf dots], tok, p', tok.span.through dots.span, hread.append hread', rfl,
      ?_, htext⟩
    have hsilent : dots.terminal.isContent = false := by rw [hterminal']; rfl
    exact Tree.partsOf_snoc
      (Tree.partsOf_singleton.2 (Tree.parts_content (hcontent hterminal)))
      (Tree.parts_silent hsilent)

/-- The default of a parameter is read in a source in front of what follows it where it is written,
and brackets that it leaves open stay open there. -/
def CarriesDefault (m : List Char) (p : Parameter) (next : Terminal × List Char) : Prop :=
  ∀ e, p.default = some e → (∃ la ∈ defaultFollowers, ReadsDefault m p.variadic e la) ∧
    KeepsOpen e.text (m.drop e.type.span.stop.offset) (next.1.spelled ++ next.2)

/-- A parameter is read where it is rendered. -/
theorem reads_parameter {m : List Char} {p : Parameter} {next : Terminal × List Char}
    (hname : IsName p.name) (hnext : IsFollower next) (hdefault : CarriesDefault m p next) :
    ReadsElement parameterStates source p.render next fun part =>
      ∃ g, part = .generic g ∧ (Parameter.ofSyntax source g).written = p.written := by
  intro b hb i hscanner hi g hg hrest q hq
  obtain ⟨hequals, hshift, hgoto, hfollow⟩ := State.parameter_named_checked p.variadic
  obtain ⟨hacc, hplain, hwith⟩ := hfollow _ hnext.mem
  have hassemble (span : Span) (own : List Part) :
      assemble (parameterConstruct p.variadic) span own =
        built .generic (genericParameter? span p.variadic own) := by
    cases p.variadic <;> rfl
  have hconstruct : parameterConstruct p.variadic ≠ .spliced := by
    cases p.variadic <;> decide
  cases hp : p.default with
  | none =>
    rw [Parameter.render, hp] at hrest
    obtain ⟨front, tok, pos, s, hread, hlength, hparts, htok⟩ :=
      reads_parameterName hb hscanner hg hname hnext.endsName hrest
    have hj : Place.Shows ⟨.parameterNamed p.variadic, pos, next.1.spelled ++ next.2⟩ next.1
        next.1.spelled next.2 := hnext.shows (g := []) (by simp) rfl hacc
    have hnode := hread.reduce hj.sees (by rw [hlength]; exact hplain) (by decide) hq
    refine ⟨_, _, _, _, hnode, hj, Tree.parts_built hparts hconstruct (hassemble _ _),
      ⟨s, tok.text, p.variadic, none⟩, rfl, ?_⟩
    simp [Parameter.written, Parameter.ofSyntax, htok, hp]
  | some e =>
    obtain ⟨⟨la, hla, hreads⟩, hopen⟩ := hdefault e hp
    have hrest' : i.rest = g ++ ((if p.variadic then p.name ++ "...".toList else p.name) ++
        ([' '] ++ (['='] ++ ([' '] ++ (e.text ++ (next.1.spelled ++ next.2)))))) := by
      rw [hrest, Parameter.render, hp]
      simp [Parameter.reference]
    obtain ⟨front, tok, pos, s, hread, hlength, hparts, htok⟩ :=
      reads_parameterName hb hscanner hg hname (by rintro c ⟨⟩; decide) hrest'
    have hsign : Place.Shows ⟨.parameterNamed p.variadic, pos, [' '] ++ (['='] ++ ([' '] ++
        (e.text ++ (next.1.spelled ++ next.2))))⟩ .equals ['='] ([' '] ++
        (e.text ++ (next.1.spelled ++ next.2))) :=
      shows_symbol rfl blank_checked rfl rfl hequals (by rintro c ⟨⟩; decide)
    obtain ⟨sign, pos', hreadSign, hterminal, -⟩ := hsign.reads hshift
    have hi' := (hi.reads hread).reads hreadSign
    obtain ⟨D, q', j, ty, hreadD, hD, hj, hpartsD, hunplaced, htext⟩ :=
      hreads.carry hla hnext hopen rfl hi' blank_checked rfl
    obtain rfl : q' = .defaulted p.variadic := by
      have hmove := hreadD.move
      rw [hD] at hmove
      exact Option.some.inj (hmove.symm.trans hgoto)
    have hnode := ((hread.append hreadSign).append hreadD).reduce hj.sees
      (c := .genericParameter) (by simpa [hlength] using hwith) (by decide) hq
    have hsilent : sign.terminal.isContent = false := by rw [hterminal]; rfl
    have hown := Tree.partsOf_snoc (Tree.partsOf_snoc hparts (Tree.parts_silent hsilent)) hpartsD
    refine ⟨_, j, _, _, hnode, hj, Tree.parts_built hown hconstruct (hassemble _ _),
      ⟨_, tok.text, p.variadic, some ty⟩, rfl, ?_⟩
    simp [Parameter.written, Parameter.ofSyntax, htok, hp, hunplaced, htext]

end Parameters
/-! ## Lists between brackets -/

theorem IsFollower.following {last : Terminal × List Char} (h : IsFollower last)
    (texts : List (List Char)) : IsFollower (following last texts) := by
  cases texts with
  | nil => exact h
  | cons t ts => exact ⟨List.mem_cons_self, fun _ _ => rfl⟩

/-- A list between brackets is its first element, and what follows that. -/
theorem angled_cons (t : List Char) (ts : List (List Char)) (tail : List Char) :
    Declaration.angled (t :: ts) ++ tail = ['<'] ++ (t ++
      ((following (.greater, tail) ts).1.spelled ++ (following (.greater, tail) ts).2)) := by
  have hseparated (t : List Char) (ts : List (List Char)) :
      separated ", ".toList (t :: ts) ++ ('>' :: tail) = t ++
        ((following (.greater, tail) ts).1.spelled ++ (following (.greater, tail) ts).2) := by
    induction ts generalizing t with
    | nil => simp [separated, following, Terminal.spelled, Terminal.spelling?]
    | cons u ts ih =>
      rw [following, ← ih u]
      simp [separated, Terminal.spelled, Terminal.spelling?]
  rw [← hseparated]
  simp [Declaration.angled]

section Angled

variable {α : Type} {S : ListStates} {source t tail : List Char} {texts : List (List Char)}
  {text : α → List Char} {R : α → Part → Prop} {x : α} {xs : List α} {q : State} {i : Place}

/-- The bracket that opens a list is read. -/
theorem reads_less (ht : ∃ c cs, t = c :: cs ∧ isNameStart c = true)
    (hrest : i.rest = Declaration.angled (t :: texts) ++ tail)
    (hacc : i.scanner.accepts .less = true) (hopen : q.shift? .less = some S.first) :
    ∃ lt p, Reads q i [.leaf lt] S.first ⟨S.first, p, t ++
      ((following (.greater, tail) texts).1.spelled ++ (following (.greater, tail) texts).2)⟩ ∧
        lt.terminal = .less := by
  rw [angled_cons] at hrest
  obtain ⟨lt, p, hread, hlt, -⟩ := (shows_symbol (g := []) hrest (by simp)
    (show isWritten .less = true from rfl) rfl hacc fun d hd => by
      obtain ⟨c, cs, rfl, hc⟩ := ht
      cases hd
      simp only [mayFollow, Bool.and_eq_true, decide_eq_true_eq]
      constructor <;> (rintro rfl; exact absurd hc (by decide))).reads hopen
  exact ⟨lt, p, hread, hlt⟩

/-- A list between brackets is read up to the closing bracket. -/
theorem reads_angled (hS : S.Valid)
    (hxs : ReadsElements S source text R (.greater, tail) (x :: xs))
    (hx : ∃ c cs, text x = c :: cs ∧ isNameStart c = true) (hi : i.In source)
    (hrest : i.rest = Declaration.angled (text x :: xs.map text) ++ tail)
    (hacc : i.scanner.accepts .less = true) (hopen : q.shift? .less = some S.first) :
    ∃ lt us q' k j ps s, lt.terminal = .less ∧ Reads q i [.leaf lt] S.first k ∧
      ReadsList S k us q' j ∧ j.Shows .greater ['>'] tail ∧ Tree.partsOf us = .ok (ps, some s) ∧
      List.Forall₂ R (x :: xs) ps := by
  obtain ⟨lt, p, hread, hlt⟩ := reads_less hx hrest hacc hopen
  obtain ⟨us, q', j, ps, s, hlist, hj, hparts, hall⟩ := reads_list hS (by simp) hxs
    (i := ⟨S.first, p, _⟩) rfl (hi.reads hread) rfl
  exact ⟨lt, us, q', _, j, ps, s, hlt, hread, hlist, hj, hparts, hall⟩

end Angled

/-! ## The parameters of a declaration -/

/-- The defaults of the parameters of a declaration, each in front of what follows it. -/
def CarriesDefaults (m : List Char) (last : Terminal × List Char) : List Parameter → Prop
  | [] => True
  | p :: ps => CarriesDefault m p (following last (ps.map Parameter.render)) ∧
      CarriesDefaults m last ps

namespace State

/-- The state behind the name of a declaration, or behind its parameters. -/
def declaring (generic : Bool) : State :=
  if generic then walkOn declarationStart [.category .genericParameters] else walk declarationStart

/-- The state behind the list of parameters. -/
def parametersListed : State :=
  walkOn declarationStart [.token .less, .category .genericParameterList]

/-- The state behind the bracket that closes the list of parameters. -/
def parametersClosed : State :=
  walkOn declarationStart [.token .less, .category .genericParameterList, .token .greater]

theorem parameters_checked :
    (declaring false).accepts .less = true ∧
      (declaring false).shift? .less = some parameterStates.first ∧
      parameterStates.first.goto? .genericParameterList = some parametersListed ∧
      parameterStates.one.reducesTo (some .greater) .genericParameterList .genericParameterList 1 =
        true ∧
      parameterStates.more.reducesTo (some .greater) .genericParameterList .genericParameterList 2 =
        true ∧
      parametersListed.shift? .greater = some parametersClosed ∧
      parametersClosed.accepts .equals = true ∧
      parametersClosed.reducesTo (some .equals) .genericParameters .spliced 3 = true ∧
      (declaring false).goto? .genericParameters = some (declaring true) := by
  decide

end State

theorem ReadsList.reducesTo {S : ListStates} {i j : Place} {us : List Tree} {q : State}
    {la : Option Terminal} {c : Category} {l : Construct} (h : ReadsList S i us q j)
    (hone : S.one.reducesTo la c l 1 = true) (hmore : S.more.reducesTo la c l 2 = true) :
    q.reducesTo la c l us.length = true := by
  cases h with
  | one => exact hone
  | more => exact hmore

theorem readsElements_parameters {source m : List Char} {last : Terminal × List Char}
    (hlast : IsFollower last) {ps : List Parameter} (hnames : ∀ p ∈ ps, IsName p.name)
    (h : CarriesDefaults m last ps) :
    ReadsElements parameterStates source Parameter.render (fun p part =>
      ∃ g, part = .generic g ∧ (Parameter.ofSyntax source g).written = p.written) last ps := by
  induction ps with
  | nil => trivial
  | cons p ps ih =>
    exact ⟨reads_parameter (hnames p List.mem_cons_self) (hlast.following _) h.1,
      ih (fun p' hp' => hnames p' (List.mem_cons_of_mem _ hp')) h.2⟩
theorem reference_cons {p : Parameter} (h : IsName p.name) :
    ∃ c cs, p.reference = c :: cs ∧ isNameStart c = true := by
  obtain ⟨c, cs, hname, hc, -⟩ := h.cons
  unfold Parameter.reference
  rw [hname]
  split
  · exact ⟨c, cs ++ "...".toList, rfl, hc⟩
  · exact ⟨c, cs, rfl, hc⟩

theorem render_cons {p : Parameter} (h : IsName p.name) :
    ∃ c cs, p.render = c :: cs ∧ isNameStart c = true := by
  obtain ⟨c, cs, hreference, hc⟩ := reference_cons h
  unfold Parameter.render
  rw [hreference]
  split
  · rename_i d _
    exact ⟨c, cs ++ " = ".toList ++ d.text, rfl, hc⟩
  · exact ⟨c, cs, rfl, hc⟩

theorem partsOf_generics {source : List Char} {ps : List Parameter} {parts : List Part}
    (h : List.Forall₂ (fun (p : Parameter) part =>
      ∃ g, part = .generic g ∧ (Parameter.ofSyntax source g).written = p.written) ps parts) :
    (parts.filterMap Part.generic?).map (fun g => (Parameter.ofSyntax source g).written) =
      ps.map Parameter.written := by
  induction h with
  | nil => rfl
  | cons hp _ ih =>
    obtain ⟨g, rfl, hg⟩ := hp
    rw [List.filterMap_cons, List.map_cons, ← ih, ← hg]
    rfl

/-- The parameters of a declaration are read where they are rendered. -/
theorem reads_parameters {source m rest : List Char} {p : Parameter} {ps : List Parameter}
    (hnames : ∀ p' ∈ p :: ps, IsName p'.name)
    (hdefaults : CarriesDefaults m (.greater, [' '] ++ (['='] ++ ([' '] ++ rest))) (p :: ps))
    {i : Place} (hscanner : i.scanner = .declaring false) (hi : i.In source)
    (hrest : i.rest = Declaration.angled ((p :: ps).map Parameter.render) ++
      ([' '] ++ (['='] ++ ([' '] ++ rest)))) :
    ∃ G j gs s, Reads (.declaring false) i [G] (.declaring true) j ∧
      j.Shows .equals ['='] ([' '] ++ rest) ∧ G.parts = .ok ([.generics gs], some s) ∧
      gs.map (fun g => (Parameter.ofSyntax source g).written) = (p :: ps).map Parameter.written := by
  obtain ⟨hacc, hopen, hgoto, hone, hmore, hclose, haccEquals, hreduces, hgeneric⟩ :=
    State.parameters_checked
  have hlast : IsFollower (Terminal.greater, [' '] ++ (['='] ++ ([' '] ++ rest))) :=
    ⟨by simp [writtenFollowers], by rintro c ⟨⟩; rfl⟩
  obtain ⟨lt, us, q', k, j, own, span, hlt, hreadOpen, hlist, hj, hown, hall⟩ :=
    reads_angled parameterStates_valid (readsElements_parameters hlast hnames hdefaults)
      (render_cons (hnames p List.mem_cons_self)) hi hrest (by rw [hscanner, hacc]) hopen
  have hL := hlist.reads.reduce hj.sees (hlist.reducesTo hone hmore) (by decide) hgoto
  obtain ⟨gt, pos, hreadClose, hgt, -⟩ := hj.reads hclose
  have hequals : Place.Shows ⟨.parametersClosed, pos, [' '] ++ (['='] ++ ([' '] ++ rest))⟩ .equals
      ['='] ([' '] ++ rest) :=
    shows_symbol rfl blank_checked rfl rfl haccEquals (by rintro c ⟨⟩; decide)
  have hG := ((hreadOpen.append hL).append hreadClose).reduce hequals.sees hreduces (by decide)
    hgeneric
  have hparts := Tree.partsOf_snoc (Tree.partsOf_snoc (Tree.partsOf_singleton.2
    (Tree.parts_silent (show lt.terminal.isContent = false by rw [hlt]; rfl)))
    (Tree.parts_built hown (l := .genericParameterList) (c := .genericParameterList) (by decide) rfl))
    (Tree.parts_silent (show gt.terminal.isContent = false by rw [hgt]; rfl))
  exact ⟨_, _, _, _, hG, hequals, Tree.parts_spliced hparts, partsOf_generics hall⟩

end Luau
end TypedLinks
