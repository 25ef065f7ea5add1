import TypedLinks.Proofs.Forwarding.Parameters

/-!
# Reading applied parameters

In the body of a declaration its parameters are applied to the type of the module. There a name may
be a keyword, which it is not where it is declared: `typeof` always is one, and so are the values
that are types. The latter are types by themselves, so they can be applied as well, unless dots
follow. With any other name the machine gets stuck.
-/

namespace TypedLinks

open Luau

/-- Whether a parameter is read as one where it is applied: there `typeof` is a keyword, and so are
the values that are types if dots follow. -/
def Parameter.isApplicable (p : Parameter) : Bool :=
  p.name ≠ "typeof".toList &&
    !(p.variadic && ["nil".toList, "true".toList, "false".toList].contains p.name)

namespace Luau

open Grammar Lexeme

/-! ## States of a body -/

/-- The symbols of a declaration up to the arguments of its body. -/
def State.argumentsStart : List GrammarSymbol :=
  declarationStart ++
    ([.token .equals, .token .name, .token .dot, .token .name, .token .less] : List GrammarSymbol)

/-- The states of the arguments in the body of a declaration. -/
def argumentStates : ListStates :=
  .behind State.argumentsStart .typeOrPack .furtherTypesOrPacks

theorem argumentStates_valid : argumentStates.Valid := by
  constructor <;> decide

/-! ## Arguments -/

/-- The nodes above the reference to a type where it is an argument. -/
def argumentChain : List Category := [.postfixType, .type, .typeOrPack]

/-- The values that are types, with their construct. -/
def valueWords : List (Terminal × Construct) :=
  [(.kwNil, .nilType), (.kwTrue, .singletonType), (.kwFalse, .singletonType)]

namespace State

/-- The state behind a word that starts an argument. -/
def argumentWord (t : Terminal) : State := walkOn argumentsStart [.token t]

/-- The state behind the dots of a pack that is an argument. -/
def argumentDots : State := walkOn argumentsStart [.token .name, .token .ellipsis]

theorem argument_bases_checked :
    ∀ b ∈ argumentStates.bases, b.accepts .name = true ∧
      b.shift? .name = some (argumentWord .name) ∧
      b.words ⊆ .kwTypeof :: valueWords.map (·.1) ∧
      ∀ la ∈ writtenFollowers, b.climb (some la) (argumentWord .name)
        ((.typeReference, .typeReference) :: (.simpleType, .spliced) :: spliced argumentChain) =
          b.goto? .typeOrPack := by
  decide

theorem argument_named_checked :
    (argumentWord .name).accepts .ellipsis = true ∧
      (argumentWord .name).shift? .ellipsis = some argumentDots ∧
      ∀ la ∈ writtenFollowers, (argumentWord .name).accepts la = true ∧
        argumentDots.accepts la = true ∧
        argumentDots.reducesTo (some la) .typeOrPack .genericPack 2 = true := by
  decide

theorem argument_values_checked :
    ∀ b ∈ argumentStates.bases, ∀ v ∈ valueWords, b.accepts v.1 = true ∧
      b.shift? v.1 = some (argumentWord v.1) ∧
      ∀ la ∈ writtenFollowers, (argumentWord v.1).accepts la = true ∧
        b.climb (some la) (argumentWord v.1) ((.simpleType, v.2) :: spliced argumentChain) =
          b.goto? .typeOrPack := by
  decide

theorem argument_typeof_checked :
    ∀ b ∈ argumentStates.bases, b.accepts .kwTypeof = true ∧
      b.shift? .kwTypeof = some (argumentWord .kwTypeof) ∧
      ['.', ',', '>'].flatMap (argumentWord .kwTypeof).starters = [] := by
  decide

theorem argument_dots_checked :
    ∀ b ∈ argumentStates.bases, ∀ v ∈ valueWords, (argumentWord v.1).starters '.' = [.concat] ∧
      (b.climb (some .concat) (argumentWord v.1) ((.simpleType, v.2) :: spliced argumentChain)).any
        fun q => q.reduction? (some .concat) = none && q.shift? .concat = none := by
  decide

end State

theorem valueWords_checked :
    ∀ v ∈ valueWords, v.1.spelling? = some v.1.spelled ∧
      v.1.spelled ∈ ["nil".toList, "true".toList, "false".toList] ∧
      v.2 ≠ .spliced ∧ v.1.isContent = false := by
  decide

theorem values_checked :
    ∀ w ∈ ["nil".toList, "true".toList, "false".toList], ∃ v ∈ valueWords, v.1.spelled = w := by
  decide

section Argument

variable {source g name rest : List Char} {p : Parameter} {next : Terminal × List Char} {b q : State}
  {i : Place}

theorem isContent_of_name {tok : Token} (h : tok.terminal = .name) :
    tok.terminal.isContent = true := by
  rw [h]
  rfl

/-- A word that is no keyword among arguments is read as a name. -/
theorem shows_argument (hb : b ∈ argumentStates.bases) (hscanner : i.scanner = b)
    (hg : ∀ c ∈ g, isSpace c = true) (hrest : i.rest = g ++ (name ++ rest)) (hname : IsName name)
    (hend : EndsName rest) (htypeof : name ≠ "typeof".toList)
    (hvalue : name ∉ ["nil".toList, "true".toList, "false".toList]) : i.Shows .name name rest := by
  obtain ⟨hacc, -, hwords, -⟩ := State.argument_bases_checked b hb
  refine shows_name hrest hg hname hend (by rw [hscanner, hacc]) fun u hu hspelling => ?_
  rw [hscanner] at hu
  rcases List.mem_cons.1 (hwords hu) with rfl | hu
  · exact htypeof (Option.some.inj hspelling).symm
  · obtain ⟨v, hv, rfl⟩ := List.mem_map.1 hu
    obtain ⟨hspelled, hmem, -⟩ := valueWords_checked v hv
    rw [hspelled] at hspelling
    exact hvalue (Option.some.inj hspelling ▸ hmem)

/-- The name of a pack and its dots are read. -/
theorem reads_packArgument (hname : IsName p.name) (htypeof : p.name ≠ "typeof".toList)
    (hvalue : p.name ∉ ["nil".toList, "true".toList, "false".toList]) (hnext : IsFollower next) :
    ReadsElement argumentStates source (p.name ++ "...".toList) next
      fun part => ∃ t, part = .type t := by
  intro b hb i hscanner hi g hg hrest q hq
  obtain ⟨-, hshift, -, -⟩ := State.argument_bases_checked b hb
  obtain ⟨haccDots, hshiftDots, hfollow⟩ := State.argument_named_checked
  obtain ⟨-, haccPack, hpack⟩ := hfollow _ hnext.mem
  rw [List.append_assoc] at hrest
  obtain ⟨tok, pos, hread, hterminal, -⟩ := (shows_argument hb hscanner hg hrest hname
    (endsName_dots _) htypeof hvalue).reads hshift
  have hdots : Place.Shows ⟨.argumentWord .name, pos, "...".toList ++ (next.1.spelled ++ next.2)⟩
      .ellipsis "...".toList (next.1.spelled ++ next.2) :=
    shows_symbol (g := []) rfl (by simp) rfl rfl haccDots (fun _ _ => rfl)
  obtain ⟨dots, pos', hreadDots, hterminal', -⟩ := hdots.reads hshiftDots
  have hj := hnext.shows (k := ⟨_, pos', _⟩) (g := []) (by simp) rfl haccPack
  have hnode := (hread.append hreadDots).reduce hj.sees (c := .typeOrPack) hpack (by decide) hq
  have hsilent : dots.terminal.isContent = false := by rw [hterminal']; rfl
  have hown := Tree.partsOf_snoc (Tree.partsOf_singleton.2
    (Tree.parts_content (isContent_of_name hterminal))) (Tree.parts_silent hsilent)
  exact ⟨_, _, _, _, hnode, hj, Tree.parts_built hown (by decide) rfl, _, rfl⟩

/-- A value is read as a type. -/
theorem reads_valueArgument (hname : IsName p.name)
    (hvalue : p.name ∈ ["nil".toList, "true".toList, "false".toList]) (hnext : IsFollower next) :
    ReadsElement argumentStates source p.name next fun part => ∃ t, part = .type t := by
  intro b hb i hscanner hi g hg hrest q hq
  obtain ⟨v, hv, hspelled⟩ := values_checked _ hvalue
  obtain ⟨hspelling, -, hl, hsilent⟩ := valueWords_checked v hv
  obtain ⟨hacc, hshift, hfollow⟩ := State.argument_values_checked b hb v hv
  obtain ⟨haccNext, hclimb⟩ := hfollow _ hnext.mem
  obtain ⟨tok, pos, hread, hterminal, -⟩ := (shows_keyword hrest hg hname hnext.endsName
    (by rw [hspelling, hspelled]) (by rw [hscanner, hacc])).reads hshift
  have hj := hnext.shows (k := ⟨_, pos, _⟩) (g := []) (by simp) rfl haccNext
  have hnode := hread.climb hj.sees (hclimb.trans hq)
  have hparts := Tree.partsOf_singleton.2 (Tree.parts_silent (hterminal ▸ hsilent))
  obtain ⟨t, ht⟩ : ∃ t, assemble v.2 tok.span [] = .ok (.type t) := by
    simp only [valueWords, List.mem_cons, List.not_mem_nil, or_false] at hv
    rcases hv with rfl | rfl | rfl <;> exact ⟨_, rfl⟩
  exact ⟨_, _, _, _, hnode, hj, Tree.parts_wrap_spliced _ (Tree.parts_built hparts hl ht), _, rfl⟩

/-- A name is read as a reference to a type. -/
theorem reads_nameArgument (hname : IsName p.name) (htypeof : p.name ≠ "typeof".toList)
    (hvalue : p.name ∉ ["nil".toList, "true".toList, "false".toList]) (hnext : IsFollower next) :
    ReadsElement argumentStates source p.name next fun part => ∃ t, part = .type t := by
  intro b hb i hscanner hi g hg hrest q hq
  obtain ⟨-, hshift, -, hclimb⟩ := State.argument_bases_checked b hb
  obtain ⟨haccNext, -, -⟩ := State.argument_named_checked.2.2 _ hnext.mem
  obtain ⟨tok, pos, hread, hterminal, -⟩ := (shows_argument hb hscanner hg hrest hname
    hnext.endsName htypeof hvalue).reads hshift
  have hj := hnext.shows (k := ⟨_, pos, _⟩) (g := []) (by simp) rfl haccNext
  have hnode := hread.climb hj.sees ((hclimb _ hnext.mem).trans hq)
  have hparts := Tree.partsOf_singleton.2 (Tree.parts_content (isContent_of_name hterminal))
  exact ⟨_, _, _, _, hnode, hj, Tree.parts_wrap_spliced (.simpleType :: argumentChain)
    (Tree.parts_built hparts (by decide) rfl), _, rfl⟩

theorem isApplicable_iff : p.isApplicable = true ↔ p.name ≠ "typeof".toList ∧
    (p.variadic = true → p.name ∉ ["nil".toList, "true".toList, "false".toList]) := by
  simp only [Parameter.isApplicable, Bool.and_eq_true, decide_eq_true_eq, Bool.not_eq_true',
    Bool.and_eq_false_iff]
  refine and_congr_right fun _ => ?_
  cases p.variadic <;> simp

/-- A parameter is read where it is applied, if it is applicable. -/
theorem reads_argument (hname : IsName p.name) (happlicable : p.isApplicable = true)
    (hnext : IsFollower next) :
    ReadsElement argumentStates source p.reference next fun part => ∃ t, part = .type t := by
  obtain ⟨htypeof, hvalue⟩ := isApplicable_iff.1 happlicable
  unfold Parameter.reference
  split
  · rename_i hvariadic
    exact reads_packArgument hname htypeof (hvalue hvariadic) hnext
  · by_cases hmem : p.name ∈ ["nil".toList, "true".toList, "false".toList]
    · exact reads_valueArgument hname hmem hnext
    · exact reads_nameArgument hname htypeof hmem hnext

/-- Behind a keyword the machine gets stuck, if it does before each token that may come next. -/
theorem stops_keyword {t : Terminal} {c : Char} (hscanner : i.scanner = b)
    (hg : ∀ c ∈ g, isSpace c = true) (hrest : i.rest = g ++ (name ++ rest)) (hname : IsName name)
    (hend : EndsName rest) (ht : t.spelling? = some name) (hacc : b.accepts t = true)
    (hshift : b.shift? t = some q) (hc : rest.head? = some c) (hmem : c ∈ ['.', ',', '>'])
    (hstuck : ∀ u ∈ q.starters c, ∃ chain q', b.climb (some u) q chain = some q' ∧
      q'.reduction? (some u) = none ∧ q'.shift? u = none) :
    ∃ ts q j, Reads b i ts q j ∧ Stuck q j := by
  obtain ⟨tok, pos, hread, -⟩ :=
    (shows_keyword hrest hg hname hend ht (by rw [hscanner, hacc])).reads hshift
  have hblank : isSpace c = false ∧ c ≠ '-' := by
    simp only [List.mem_cons, List.not_mem_nil, or_false] at hmem
    rcases hmem with rfl | rfl | rfl <;> decide
  obtain ⟨hspace, hminus⟩ := hblank
  rcases look_of_head (i := ⟨q, pos, rest⟩) hc hspace hminus with hlook | ⟨u, hu, hsees⟩
  · exact ⟨_, _, _, hread, .inl hlook⟩
  · obtain ⟨chain, q', hclimb, hreduction, hshift'⟩ := hstuck u hu
    obtain ⟨s, hlook, hs⟩ := hsees
    refine ⟨_, _, _, hread.climb ⟨s, hlook, hs⟩ hclimb, .inr ⟨s, hlook, by rw [hs, hreduction], ?_⟩⟩
    intro v hv
    rw [Sight.terminal, hv] at hs
    obtain rfl := Option.some.inj hs
    exact hshift'

/-- What follows the name of an applied parameter. -/
theorem reference_append (p : Parameter) (hnext : IsFollower next) :
    ∃ rest c, p.reference ++ (next.1.spelled ++ next.2) = p.name ++ rest ∧ EndsName rest ∧
      rest.head? = some c ∧ c ∈ ['.', ',', '>'] ∧ (p.variadic = true → c = '.') := by
  unfold Parameter.reference
  split
  · exact ⟨"...".toList ++ (next.1.spelled ++ next.2), '.', by rw [List.append_assoc],
      endsName_dots _, rfl, by simp, fun _ => rfl⟩
  · rename_i hvariadic
    obtain ⟨la, rest⟩ := next
    have hla := hnext.mem
    simp only [writtenFollowers, List.mem_cons, List.not_mem_nil, or_false] at hla
    rcases hla with rfl | rfl
    · exact ⟨_, ',', rfl, hnext.endsName, rfl, by simp, fun h => absurd h hvariadic⟩
    · exact ⟨_, '>', rfl, hnext.endsName, rfl, by simp, fun h => absurd h hvariadic⟩

/-- The machine gets stuck in a parameter that is applied, if it is not applicable. -/
theorem stops_argument (hname : IsName p.name) (h : p.isApplicable = false)
    (hnext : IsFollower next) : StopsElement argumentStates p.reference next := by
  intro b hb i hscanner g hg hrest
  obtain ⟨rest, c, hreference, hend, hc, hmem, hdots⟩ := reference_append p hnext
  rw [hreference] at hrest
  by_cases htypeof : p.name = "typeof".toList
  · obtain ⟨hacc, hshift, hstarters⟩ := State.argument_typeof_checked b hb
    refine stops_keyword hscanner hg hrest hname hend (t := .kwTypeof) (by rw [htypeof]; rfl) hacc
      hshift hc hmem ?_
    rw [List.flatMap_eq_nil_iff.1 hstarters c hmem]
    simp
  · have hpack : p.variadic = true ∧ p.name ∈ ["nil".toList, "true".toList, "false".toList] := by
      rw [← Bool.not_eq_true, isApplicable_iff, Classical.not_and_iff_not_or_not] at h
      simpa only [Classical.not_imp, Classical.not_not] using h.resolve_left (absurd htypeof)
    obtain ⟨hvariadic, hvalue⟩ := hpack
    obtain rfl := hdots hvariadic
    obtain ⟨v, hv, hspelled⟩ := values_checked _ hvalue
    obtain ⟨hspelling, -, -⟩ := valueWords_checked v hv
    obtain ⟨hacc, hshift, -⟩ := State.argument_values_checked b hb v hv
    obtain ⟨hstarters, hany⟩ := State.argument_dots_checked b hb v hv
    obtain ⟨q, hclimb, hq⟩ := (Option.any_eq_true _ _).1 hany
    simp only [Bool.and_eq_true, decide_eq_true_eq] at hq
    refine stops_keyword hscanner hg hrest hname hend (hspelled ▸ hspelling) hacc hshift hc hmem ?_
    rw [hstarters]
    exact List.forall_mem_singleton.2 ⟨_, q, hclimb, hq⟩

/-- Parameters are read where they are applied, if they are applicable. -/
theorem readsElements_arguments {last : Terminal × List Char} (hlast : IsFollower last)
    {ps : List Parameter} (hnames : ∀ p ∈ ps, IsName p.name)
    (h : ∀ p ∈ ps, p.isApplicable = true) :
    ReadsElements argumentStates source Parameter.reference (fun _ part => ∃ t, part = .type t)
      last ps := by
  induction ps with
  | nil => trivial
  | cons p ps ih =>
    rw [List.forall_mem_cons] at hnames h
    exact ⟨reads_argument hnames.1 h.1 (hlast.following _), ih hnames.2 h.2⟩

/-- The machine gets stuck in parameters that are applied, if one is not applicable. -/
theorem stopsElements_arguments (source : List Char) {last : Terminal × List Char}
    (hlast : IsFollower last)
    {ps : List Parameter} (hnames : ∀ p ∈ ps, IsName p.name)
    (h : ∃ p ∈ ps, p.isApplicable = false) :
    StopsElements argumentStates source Parameter.reference (fun _ part => ∃ t, part = .type t)
      last ps := by
  induction ps with
  | nil => simp at h
  | cons p ps ih =>
    rw [List.forall_mem_cons] at hnames
    cases hp : p.isApplicable with
    | false => exact .inl (stops_argument hnames.1 hp (hlast.following _))
    | true =>
      have hps : ∃ q ∈ ps, q.isApplicable = false := by simpa [hp] using h
      exact .inr ⟨reads_argument hnames.1 hp (hlast.following _), ih hnames.2 hps⟩

end Argument

/-! ## What follows a statement -/

/-- What follows a statement where it is written: a line separator, and a word that starts another
declaration or the last statement. -/
structure NextStatement (after : List Char) (word : Terminal) (rest : List Char) : Prop where
  mem : word ∈ [Terminal.kwExport, .kwReturn]
  split : ∃ separator, separator ∈ [['\n'], ['\r', '\n']] ∧
    after = separator ++ (word.spelled ++ rest)
  endsWord : EndsName rest

namespace NextStatement

variable {after rest : List Char} {word : Terminal}

theorem endsName (h : NextStatement after word rest) : EndsName after := by
  obtain ⟨separator, hseparator, rfl⟩ := h.split
  simp only [List.mem_cons, List.not_mem_nil, or_false] at hseparator
  rintro c hc
  rcases hseparator with rfl | rfl <;> cases hc <;> decide

theorem shows (h : NextStatement after word rest) {k : Place} (hk : k.rest = after)
    (hacc : k.scanner.accepts word = true) : k.Shows word word.spelled rest := by
  obtain ⟨separator, hseparator, rfl⟩ := h.split
  have hblank : ∀ g ∈ [['\n'], ['\r', '\n']], g.all isSpace = true := by decide
  have hwords : ∀ t ∈ [Terminal.kwExport, .kwReturn], IsName t.spelled ∧
      t.spelling? = some t.spelled := by
    simp only [List.mem_cons, List.not_mem_nil, or_false, forall_eq_or_imp, forall_eq]
    exact ⟨⟨rfl, rfl⟩, rfl, rfl⟩
  obtain ⟨hname, hspelling⟩ := hwords word h.mem
  exact shows_keyword hk (List.all_eq_true.1 (hblank _ hseparator)) hname h.endsWord hspelling hacc

/-- What follows a body follows the bracket that closes its arguments. -/
theorem isFollower (h : NextStatement after word rest) : IsFollower (Terminal.greater, after) := by
  refine ⟨by simp [writtenFollowers], ?_⟩
  obtain ⟨separator, hseparator, rfl⟩ := h.split
  simp only [List.mem_cons, List.not_mem_nil, or_false] at hseparator
  rintro c hc
  rcases hseparator with rfl | rfl <;> cases hc <;> rfl

end NextStatement

/-! ## The body of a declaration -/

namespace State

/-- The state behind the equals sign of a declaration. -/
def typing (generic : Bool) : State :=
  if generic then walkOn declarationStart [.category .genericParameters, .token .equals]
  else walkOn declarationStart [.token .equals]

/-- The state behind the type of a declaration. -/
def typed (generic : Bool) : State :=
  if generic then
    walkOn declarationStart [.category .genericParameters, .token .equals, .category .type]
  else walkOn declarationStart [.token .equals, .category .type]

/-- The state behind the module in a body. -/
def moduleNamed : State := walkOn declarationStart [.token .equals, .token .name]

/-- The state behind the dot in a body. -/
def moduleDotted : State := walkOn declarationStart [.token .equals, .token .name, .token .dot]

/-- The state behind the name in a body. -/
def typeNamed : State :=
  walkOn declarationStart [.token .equals, .token .name, .token .dot, .token .name]

/-- The state behind the arguments in a body. -/
def typeApplied : State :=
  walkOn declarationStart
    [.token .equals, .token .name, .token .dot, .token .name, .category .typeArguments]

/-- The nodes above the reference to a type where it is the body of a declaration. -/
def bodyChain : List Category := [.simpleType, .postfixType, .type]

theorem body_names_checked :
    (∀ generic, (typing generic).accepts .name = true ∧
        (∀ u ∈ (typing generic).words, u.spelling? ≠ some moduleBinding) ∧
        (typing generic).shift? .name = some moduleNamed) ∧
      moduleNamed.accepts .dot = true ∧ moduleNamed.shift? .dot = some moduleDotted ∧
      moduleDotted.accepts .name = true ∧ moduleDotted.words = [] ∧
      moduleDotted.shift? .name = some typeNamed := by
  decide

theorem body_reference_checked :
    ∀ la ∈ [Terminal.kwExport, .kwReturn], typeNamed.accepts la = true ∧
      typeNamed.reducesTo (some la) .typeReference .typeReference 3 = true ∧
      typeApplied.reducesTo (some la) .typeReference .typeReference 4 = true ∧
      ∀ generic, ((typing generic).goto? .typeReference).bind
        (climb (typing generic) (some la) · (spliced bodyChain)) = some (typed generic) := by
  decide

theorem body_arguments_checked :
    typeNamed.accepts .less = true ∧ typeNamed.shift? .less = some argumentStates.first ∧
      typeNamed.goto? .typeArguments = some typeApplied ∧
      ∀ x ∈ [(argumentStates.one, 3), (argumentStates.more, 4)],
        (x.1.shift? .greater).any fun q => [Terminal.kwExport, .kwReturn].all fun la =>
          q.accepts la && q.reducesTo (some la) .typeArguments .typeArguments x.2 := by
  decide

end State

section Body

variable {source after rest name : List Char} {word : Terminal} {i : Place} {generic : Bool}
  {p : Parameter} {ps : List Parameter}

/-- The arguments in a body are read. -/
theorem reads_arguments (hnames : ∀ p' ∈ p :: ps, IsName p'.name)
    (happlicable : ∀ p' ∈ p :: ps, p'.isApplicable = true)
    (hafter : NextStatement after word rest) (hscanner : i.scanner = .typeNamed) (hi : i.In source)
    (hrest : i.rest = Declaration.angled ((p :: ps).map Parameter.reference) ++ after) :
    ∃ A j ts s, Reads .typeNamed i [A] .typeApplied j ∧ j.rest = after ∧
      j.scanner.accepts word = true ∧ A.parts = .ok ([.types ts], some s) := by
  obtain ⟨hacc, hopen, hgoto, hclose⟩ := State.body_arguments_checked
  obtain ⟨lt, us, q', k, j, own, span, hlt, hreadOpen, hlist, hj, hown, -⟩ :=
    reads_angled argumentStates_valid (readsElements_arguments hafter.isFollower hnames happlicable)
      (reference_cons (hnames p List.mem_cons_self)) hi hrest (by rw [hscanner, hacc]) hopen
  obtain ⟨q, hshift, haccWord, hreduces⟩ : ∃ q, q'.shift? .greater = some q ∧
      q.accepts word = true ∧
      q.reducesTo (some word) .typeArguments .typeArguments (us.length + 2) = true := by
    have hx : (q', us.length + 2) ∈ [(argumentStates.one, 3), (argumentStates.more, 4)] := by
      cases hlist <;> simp
    obtain ⟨q, hq, hall⟩ := (Option.any_eq_true _ _).1 (hclose _ hx)
    have h := List.all_eq_true.1 hall word hafter.mem
    rw [Bool.and_eq_true] at h
    exact ⟨q, hq, h⟩
  obtain ⟨gt, pos, hreadClose, hgt, -⟩ := hj.reads hshift
  have hsees := hafter.shows (k := ⟨q, pos, after⟩) rfl haccWord
  have hlength : ([Tree.leaf lt] ++ us ++ [Tree.leaf gt]).length = us.length + 2 := by
    rw [List.length_append, List.singleton_append]
    rfl
  have hA := ((hreadOpen.append hlist.reads).append hreadClose).reduce hsees.sees
    (by rw [hlength]; exact hreduces) (by decide) hgoto
  have hparts := Tree.partsOf_snoc (Tree.partsOf_append_eq_ok.2 ⟨_, _, _, _, Tree.partsOf_singleton.2
    (Tree.parts_silent (show lt.terminal.isContent = false by rw [hlt]; rfl)), hown, rfl, rfl⟩)
    (Tree.parts_silent (show gt.terminal.isContent = false by rw [hgt]; rfl))
  exact ⟨_, _, _, _, hA, rfl, haccWord, Tree.parts_built hparts (by decide) rfl⟩

/-- The machine gets stuck in the arguments in a body, if a parameter is not applicable. -/
theorem stops_arguments (hnames : ∀ p' ∈ ps, IsName p'.name)
    (h : ∃ p' ∈ ps, p'.isApplicable = false) (hafter : NextStatement after word rest)
    (hscanner : i.scanner = .typeNamed) (hi : i.In source)
    (hrest : i.rest = Declaration.angled (ps.map Parameter.reference) ++ after) :
    ∃ ts q j, Reads .typeNamed i ts q j ∧ Stuck q j := by
  obtain ⟨hacc, hopen, -, -⟩ := State.body_arguments_checked
  cases ps with
  | nil => simp at h
  | cons p ps =>
    obtain ⟨lt, pos, hread, -⟩ := reads_less (reference_cons (hnames p List.mem_cons_self)) hrest
      (by rw [hscanner, hacc]) hopen
    obtain ⟨us, q, j, hus, hstuck⟩ := stops_list argumentStates_valid (by simp)
      (stopsElements_arguments source hafter.isFollower hnames h) rfl (hi.reads hread) rfl
    exact ⟨_, q, j, hread.append hus, hstuck⟩

/-- What follows the name in a body. -/
theorem NextStatement.endsName_angled (h : NextStatement after word rest) (texts : List (List Char)) :
    EndsName (Declaration.angled texts ++ after) := by
  cases texts with
  | nil => exact h.endsName
  | cons t texts =>
    rw [angled_cons]
    rintro c ⟨⟩
    decide

/-- The name in a body is read, behind that of the module. -/
theorem reads_bodyName {tail : List Char} (hname : IsName name) (htail : EndsName tail)
    (hscanner : i.scanner = .typing generic)
    (hrest : i.rest = [' '] ++ (moduleBinding ++ (['.'] ++ (name ++ tail)))) :
    ∃ m dot n p span, Reads (.typing generic) i [.leaf m, .leaf dot, .leaf n] .typeNamed
        ⟨.typeNamed, p, tail⟩ ∧
      Tree.partsOf [.leaf m, .leaf dot, .leaf n] = .ok ([.token m, .token n], span) := by
  obtain ⟨hbase, haccDot, hshiftDot, haccName, hwords, hshiftName⟩ := State.body_names_checked
  obtain ⟨hacc, hmodule, hshift⟩ := hbase generic
  obtain ⟨c, cs, hcons, hc, -⟩ := hname.cons
  obtain ⟨m, p₁, hreadM, hm, -⟩ := (shows_name hrest blank_checked
    (show IsName moduleBinding from rfl) (by rintro d ⟨⟩; decide) (by rw [hscanner, hacc])
    (by rw [hscanner]; exact hmodule)).reads hshift
  have hdot : Place.Shows ⟨.moduleNamed, p₁, ['.'] ++ (name ++ tail)⟩ .dot ['.'] (name ++ tail) := by
    refine shows_symbol (g := []) rfl (by simp) rfl rfl haccDot fun d hd => ?_
    rw [hcons] at hd
    cases hd
    simp only [mayFollow, Bool.and_eq_true, decide_eq_true_eq, Bool.not_eq_true']
    exact ⟨by rintro rfl; exact absurd hc (by decide), isDigit_of_isNameStart hc⟩
  obtain ⟨dot, p₂, hreadD, hdotTerminal, -⟩ := hdot.reads hshiftDot
  have hn : Place.Shows ⟨.moduleDotted, p₂, name ++ tail⟩ .name name tail :=
    shows_name (g := []) rfl (by simp) hname htail haccName (by rw [hwords]; simp)
  obtain ⟨n, p₃, hreadN, hnTerminal, -⟩ := hn.reads hshiftName
  have hown := Tree.partsOf_snoc (Tree.partsOf_snoc
    (Tree.partsOf_singleton.2 (Tree.parts_content (isContent_of_name hm)))
    (Tree.parts_silent (show dot.terminal.isContent = false by rw [hdotTerminal]; rfl)))
    (Tree.parts_content (isContent_of_name hnTerminal))
  exact ⟨m, dot, n, p₃, _, (hreadM.append hreadD).append hreadN, hown⟩

/-- The body of a declaration is read, in which parameters are applied to a type of the module. -/
theorem reads_body (hname : IsName name) (hnames : ∀ p ∈ ps, IsName p.name)
    (happlicable : ∀ p ∈ ps, p.isApplicable = true) (hafter : NextStatement after word rest)
    (hscanner : i.scanner = .typing generic) (hi : i.In source)
    (hrest : i.rest = [' '] ++ (moduleBinding ++ (['.'] ++
      (name ++ (Declaration.angled (ps.map Parameter.reference) ++ after))))) :
    ∃ B j ty, Reads (.typing generic) i [B] (.typed generic) j ∧ j.rest = after ∧
      j.scanner.accepts word = true ∧ B.parts = .ok ([.type ty], some ty.span) ∧
      ty.span.text source = moduleBinding ++ (['.'] ++
        (name ++ Declaration.angled (ps.map Parameter.reference))) := by
  obtain ⟨haccWord, hplain, happlied, hgoto⟩ := State.body_reference_checked word hafter.mem
  obtain ⟨referred, hreferred, hclimb⟩ := Option.bind_eq_some_iff.1 (hgoto generic)
  obtain ⟨m, dot, n, p₃, span, hread, hown⟩ :=
    reads_bodyName hname (hafter.endsName_angled _) hscanner hrest
  obtain ⟨span, rfl⟩ : ∃ s, span = some s := by
    have hextent := Tree.span_of_partsOf hown
    cases span with
    | none => contradiction
    | some s => exact ⟨s, rfl⟩
  obtain ⟨us, j, ty, _, hreadRef, hj, haccJ, hparts, rfl⟩ : ∃ us j ty s,
      Reads (.typing generic) i [.node .typeReference .typeReference us] referred j ∧
        j.rest = after ∧ j.scanner.accepts word = true ∧
        (Tree.node .typeReference .typeReference us).parts = .ok ([.type ty], some s) ∧
        s = ty.span := by
    cases ps with
    | nil =>
      have hsees := hafter.shows (k := ⟨.typeNamed, p₃, after⟩) rfl haccWord
      exact ⟨_, _, _, _, hread.reduce hsees.sees hplain (by decide) hreferred, rfl, haccWord,
        Tree.parts_built hown (by decide) rfl, rfl⟩
    | cons p ps =>
      obtain ⟨A, j, ts, s, hreadA, hj, haccJ, hpartsA⟩ := reads_arguments hnames happlicable hafter
        (i := ⟨.typeNamed, p₃, _⟩) rfl (hi.reads hread) rfl
      have hsees := hafter.shows hj haccJ
      exact ⟨_, _, _, _, (hread.append hreadA).reduce hsees.sees happlied (by decide) hreferred, hj,
        haccJ, Tree.parts_built (Tree.partsOf_snoc hown hpartsA) (by decide) rfl, rfl⟩
  have hB := hreadRef.climb (hafter.shows hj haccJ).sees hclimb
  have hpartsB := Tree.parts_wrap_spliced State.bodyChain hparts
  refine ⟨_, j, ty, hB, hj, haccJ, hpartsB, (hB.text hi (Tree.partsOf_singleton.2 hpartsB)
    (g := [' ']) ?_ ?_).1⟩
  · rw [Place.gap, hrest]
    exact gap_blank blank_checked (startsToken_of_head rfl (by decide) (by decide))
  · rw [hrest, hj]
    simp only [List.append_assoc]

/-- The machine gets stuck in a body in which a parameter is applied that is not applicable. -/
theorem stops_body (hname : IsName name) (hnames : ∀ p ∈ ps, IsName p.name)
    (h : ∃ p ∈ ps, p.isApplicable = false) (hafter : NextStatement after word rest)
    (hscanner : i.scanner = .typing generic) (hi : i.In source)
    (hrest : i.rest = [' '] ++ (moduleBinding ++ (['.'] ++
      (name ++ (Declaration.angled (ps.map Parameter.reference) ++ after))))) :
    ∃ ts q j, Reads (.typing generic) i ts q j ∧ Stuck q j := by
  obtain ⟨m, dot, n, p₃, -, hread, -⟩ :=
    reads_bodyName hname (hafter.endsName_angled _) hscanner hrest
  obtain ⟨us, q, j, hus, hstuck⟩ := stops_arguments hnames h hafter rfl (hi.reads hread) rfl
  exact ⟨_, q, j, hread.append hus, hstuck⟩

end Body

end Luau
end TypedLinks
