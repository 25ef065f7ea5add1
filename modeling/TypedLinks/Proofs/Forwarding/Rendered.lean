import TypedLinks.Proofs.Forwarding.Arguments

/-!
# Reading rendered declarations

The machine reads a forwarded declaration where it is rendered: its name, its parameters, each with
the default that it keeps, and its body, in which the parameters are applied to the type of the
module. What it builds has the names and the texts of the declaration. If a parameter cannot be
applied, the machine gets stuck in the body.
-/

namespace TypedLinks

open Luau

/-- What is written of a declaration: its name, its parameters and its body. -/
def Declaration.written (d : Declaration) :
    Name × List (Name × Bool × Option (TypeNode × List Char)) × List Char :=
  (d.name, d.parameters.map Parameter.written, d.body)

/-- Whether all parameters of a declaration are read as such where they are applied. -/
def Declaration.isApplicable (d : Declaration) : Bool := d.parameters.all Parameter.isApplicable

namespace Luau

open Grammar Lexeme

namespace State

/-- The state behind some statements. -/
def stating : State := walk [.category .statements]

/-- The state behind a statement after others. -/
def stated : State := walk [.category .statements, .category .statement]

theorem declaration_checked :
    stating.shift? .kwExport = some (walk [.token .kwExport]) ∧
      (walk [.token .kwExport]).accepts .kwType = true ∧
      (walk [.token .kwExport]).shift? .kwType = some (walk [.token .kwExport, .token .kwType]) ∧
      (walk [.token .kwExport, .token .kwType]).accepts .name = true ∧
      (walk [.token .kwExport, .token .kwType]).words = [.kwFunction] ∧
      (walk [.token .kwExport, .token .kwType]).shift? .name = some (declaring false) ∧
      (declaring false).accepts .equals = true ∧
      (∀ generic, (declaring generic).shift? .equals = some (typing generic)) ∧
      stating.goto? .statement = some stated ∧
      ∀ la ∈ [Terminal.kwExport, .kwReturn],
        (typed false).reducesTo (some la) .statement .typeDeclaration 5 = true ∧
          (typed true).reducesTo (some la) .statement .typeDeclaration 6 = true := by
  decide

end State

/-- A declaration can be read where it is rendered in front of a text, apart from its body: its names
are read as names, and its defaults are carried. -/
structure Rereadable (m after : List Char) (d : Declaration) : Prop where
  isName : IsName d.name
  name_ne : d.name ≠ "function".toList
  names : ∀ p ∈ d.parameters, IsName p.name
  defaults : CarriesDefaults m (.greater, [' '] ++ (['='] ++ ([' '] ++ (d.body ++ after))))
    d.parameters
  body : d.body = moduleBinding ++ (['.'] ++
    (d.name ++ Declaration.angled (d.parameters.map Parameter.reference)))

theorem render_eq (d : Declaration) (after : List Char) :
    d.render ++ after = Terminal.kwExport.spelled ++ ([' '] ++ (Terminal.kwType.spelled ++ ([' '] ++
      (d.name ++ (Declaration.angled (d.parameters.map Parameter.render) ++
        ([' '] ++ (['='] ++ ([' '] ++ (d.body ++ after))))))))) := by
  have hrender : d.render = (Terminal.kwExport.spelled ++ ([' '] ++
      (Terminal.kwType.spelled ++ [' ']))) ++ d.name ++
      Declaration.angled (d.parameters.map Parameter.render) ++ ([' '] ++ (['='] ++ [' '])) ++
      d.body := rfl
  simp only [hrender, List.append_assoc]

section Declaration

variable {source m after rest tail : List Char} {word : Terminal} {d : Declaration} {i : Place}

/-- The parameters of a declaration end its name, also if there are none. -/
theorem endsName_angled (ps : List Parameter) (v : List Char) :
    EndsName (Declaration.angled (ps.map Parameter.render) ++ ([' '] ++ v)) := by
  cases ps with
  | nil =>
    rintro c ⟨⟩
    decide
  | cons p ps =>
    rw [List.map_cons, angled_cons]
    rintro c ⟨⟩
    decide

/-- The parameters of a declaration are read up to the equals sign, and the declaration is a generic
one if there are some. -/
theorem reads_declaredList (h : Rereadable m after d) (hin : i.In source)
    (hscanner : i.scanner = .declaring false)
    (hrest : i.rest = Declaration.angled (d.parameters.map Parameter.render) ++
      ([' '] ++ (['='] ++ ([' '] ++ (d.body ++ after))))) :
    ∃ (generic : Bool) (ts : List Tree) (k : Place) (own : List Part) (span : Option Span),
      Reads (.declaring false) i ts (.declaring generic) k ∧
      k.Shows .equals ['='] ([' '] ++ (d.body ++ after)) ∧ Tree.partsOf ts = .ok (own, span) ∧
      ts.length = (if generic then 1 else 0) ∧
      (generic = false ∧ own = [] ∧ d.parameters = [] ∨ ∃ gs, own = [.generics gs] ∧
        gs.map (fun g => (Parameter.ofSyntax source g).written) =
          d.parameters.map Parameter.written) := by
  obtain ⟨-, -, -, -, -, -, haccEquals, -, -⟩ := State.declaration_checked
  have hnames := h.names
  have hdefaults := h.defaults
  obtain ⟨_, p, _⟩ := i
  subst hscanner hrest
  cases hps : d.parameters with
  | nil =>
    exact ⟨false, [], _, [], none, .nil _ _,
      shows_symbol rfl blank_checked rfl rfl haccEquals (by rintro c ⟨⟩; decide), rfl, rfl,
      .inl ⟨rfl, rfl, rfl⟩⟩
  | cons p ps =>
    rw [hps] at hnames hdefaults hin
    obtain ⟨G, j, gs, s, hG, hj, hpartsG, hgs⟩ := reads_parameters hnames hdefaults rfl hin rfl
    exact ⟨true, [G], j, _, some s, hG, hj, Tree.partsOf_singleton.2 hpartsG, rfl,
      .inr ⟨gs, rfl, hgs⟩⟩

/-- The words, the name and the parameters of a declaration are read up to the equals sign. -/
theorem reads_declarationHead (h : Rereadable m after d) (hi : i.In source)
    (hi' : i.Shows .kwExport Terminal.kwExport.spelled tail)
    (htail : d.render ++ after = Terminal.kwExport.spelled ++ tail) :
    ∃ (generic : Bool) (ts : List Tree) (k : Place) (mark type name : Token) (own : List Part)
      (span : Option Span),
      Reads .stating i ts (.typing generic) k ∧ ts.length = (if generic then 5 else 4) ∧
      k.scanner = .typing generic ∧ k.rest = [' '] ++ (d.body ++ after) ∧
      Tree.partsOf ts =
        .ok ([Part.token mark] ++ [Part.token type] ++ [Part.token name] ++ own, span) ∧
      mark.terminal = .kwExport ∧ name.text = d.name ∧
      (generic = false ∧ own = [] ∧ d.parameters = [] ∨ ∃ gs, own = [.generics gs] ∧
        gs.map (fun g => (Parameter.ofSyntax source g).written) =
          d.parameters.map Parameter.written) := by
  obtain ⟨hshiftExport, haccType, hshiftType, haccName, hwords, hshiftName, -, hshiftEquals, -⟩ :=
    State.declaration_checked
  rw [render_eq] at htail
  obtain rfl := List.append_cancel_left htail
  have hend := endsName_angled d.parameters (['='] ++ ([' '] ++ (d.body ++ after)))
  generalize hlist : Declaration.angled (d.parameters.map Parameter.render) ++
    ([' '] ++ (['='] ++ ([' '] ++ (d.body ++ after)))) = list at hend hi'
  obtain ⟨mark, p₁, hreadExport, hmark, -⟩ := hi'.reads hshiftExport
  have htype : Place.Shows ⟨.walk [.token .kwExport], p₁, [' '] ++ (Terminal.kwType.spelled ++
      ([' '] ++ (d.name ++ list)))⟩ .kwType Terminal.kwType.spelled ([' '] ++ (d.name ++ list)) :=
    shows_keyword rfl blank_checked rfl (by rintro c ⟨⟩; decide) rfl haccType
  obtain ⟨type, p₂, hreadType, htypeTerminal, -⟩ := htype.reads hshiftType
  have hname : Place.Shows ⟨.walk [.token .kwExport, .token .kwType], p₂, [' '] ++
      (d.name ++ list)⟩ .name d.name list := by
    refine shows_name rfl blank_checked h.isName hend haccName ?_
    rw [hwords]
    intro u hu hspelling
    rw [List.mem_singleton.1 hu] at hspelling
    exact h.name_ne (Option.some.inj hspelling).symm
  obtain ⟨name, p₃, hreadName, hnameTerminal, hnameText⟩ := hname.reads hshiftName
  have hread := (hreadExport.append hreadType).append hreadName
  have hown := Tree.partsOf_snoc (Tree.partsOf_snoc
    (Tree.partsOf_singleton.2
      (Tree.parts_content (show mark.terminal.isContent = true by rw [hmark]; rfl)))
    (Tree.parts_content (show type.terminal.isContent = true by rw [htypeTerminal]; rfl)))
    (Tree.parts_content (isContent_of_name hnameTerminal))
  obtain ⟨generic, us, k, own, s, hreadList, hk, hparts, hlength, hown'⟩ :=
    reads_declaredList h (hi.reads hread) rfl hlist.symm
  obtain ⟨sign, p₄, hreadSign, hsign, -⟩ := hk.reads (hshiftEquals generic)
  have hpartsAll := Tree.partsOf_snoc
    (Tree.partsOf_append_eq_ok.2 ⟨_, _, _, _, hown, hparts, rfl, rfl⟩)
    (Tree.parts_silent (show sign.terminal.isContent = false by rw [hsign]; rfl))
  rw [List.append_nil] at hpartsAll
  refine ⟨generic, _, ⟨.typing generic, p₄, _⟩, mark, type, name, own, _,
    (hread.append hreadList).append hreadSign, ?_, rfl, rfl, hpartsAll, hmark, hnameText, hown'⟩
  simp only [List.length_append, List.length_singleton, hlength]
  cases generic <;> rfl

/-- A declaration is read where it is rendered, if its parameters are applicable. -/
theorem reads_declaration (h : Rereadable m after d) (happlicable : d.isApplicable = true)
    (hafter : NextStatement after word rest) (hi : i.In source)
    (hi' : i.Shows .kwExport Terminal.kwExport.spelled tail)
    (htail : d.render ++ after = Terminal.kwExport.spelled ++ tail) :
    ∃ T j t s, Reads .stating i [T] .stated j ∧ j.rest = after ∧ j.scanner.accepts word = true ∧
      T.parts = .ok ([.statement (.typeDeclaration t)], some s) ∧ t.exported = true ∧
      (Declaration.ofSyntax source t).written = d.written := by
  obtain ⟨-, -, -, -, -, -, -, -, hgoto, hreduces⟩ := State.declaration_checked
  obtain ⟨hplain, hgeneric⟩ := hreduces word hafter.mem
  obtain ⟨generic, ts, k, mark, type, name, own, span, hread, hlength, hscanner, hk, hparts, hmark,
    hname, hown⟩ := reads_declarationHead h hi hi' htail
  obtain ⟨B, j, ty, hreadB, hj, haccJ, hpartsB, htext⟩ := reads_body h.isName h.names
    (List.all_eq_true.1 happlicable) hafter hscanner (hi.reads hread)
    (by rw [hk, h.body]; simp only [List.append_assoc])
  have hT := (hread.append hreadB).reduce (hafter.shows hj haccJ).sees (c := .statement)
    (l := .typeDeclaration) (by
      rw [List.length_append, hlength]
      cases generic
      · exact hplain
      · exact hgeneric) (by decide) hgoto
  obtain ⟨span, hpartsAll⟩ := Tree.partsOf_snoc_some hparts hpartsB
  obtain ⟨terminal, _, _⟩ := mark
  obtain rfl : terminal = .kwExport := hmark
  have hwritten {gs : Option (List GenericParameter)}
      (hgs : (gs.getD []).map (fun g => (Parameter.ofSyntax source g).written) =
        d.parameters.map Parameter.written) :
      (Declaration.ofSyntax source ⟨span, true, name.text, gs, ty⟩).written = d.written := by
    have hbody : (Declaration.ofSyntax source ⟨span, true, name.text, gs, ty⟩).body = d.body :=
      htext.trans h.body.symm
    rw [Declaration.written, Declaration.written, hbody, ← hgs]
    cases gs <;> simp [Declaration.ofSyntax, Declaration.parameters, hname]
  rcases hown with ⟨-, rfl, hps⟩ | ⟨gs, rfl, hgs⟩
  · exact ⟨_, j, ⟨span, true, name.text, none, ty⟩, span, hT, hj, haccJ,
      Tree.parts_built hpartsAll (by decide) rfl, rfl, hwritten (by rw [hps]; rfl)⟩
  · exact ⟨_, j, ⟨span, true, name.text, some gs, ty⟩, span, hT, hj, haccJ,
      Tree.parts_built hpartsAll (by decide) rfl, rfl, hwritten hgs⟩

/-- The machine gets stuck in a declaration with a parameter that is not applicable. -/
theorem stops_declaration (h : Rereadable m after d) (hstop : d.isApplicable = false)
    (hafter : NextStatement after word rest) (hi : i.In source)
    (hi' : i.Shows .kwExport Terminal.kwExport.spelled tail)
    (htail : d.render ++ after = Terminal.kwExport.spelled ++ tail) :
    ∃ ts q j, Reads .stating i ts q j ∧ Stuck q j := by
  obtain ⟨generic, ts, k, -, -, -, -, -, hread, -, hscanner, hk, -⟩ :=
    reads_declarationHead h hi hi' htail
  obtain ⟨us, q, j, hus, hstuck⟩ := stops_body h.isName h.names
    (by simpa using List.all_eq_false.1 hstop) hafter hscanner (hi.reads hread)
    (by rw [hk, h.body]; simp only [List.append_assoc])
  exact ⟨_, q, j, hread.append hus, hstuck⟩

end Declaration

end Luau
end TypedLinks
