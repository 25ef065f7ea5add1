import TypedLinks.Proofs.Parsing.Walk
import TypedLinks.Proofs.Syntax.Blocks

/-!
# Defaults in their module

How the machine reads the generic parameters of the exported types of a module: each name is a word
that is no keyword there, and each default is read from the state behind its equals sign, up to the
comma or the bracket that follows it.
-/

namespace TypedLinks.Luau

open Grammar Lexeme

/-! ## The end of a type -/

/-- The categories whose trees stand at the end of a type. -/
def typeEnds : List Category :=
  [.typeOrPack, .type, .postfixType, .simpleType, .typeReference, .typeArguments, .tableType,
    .furtherMembers]

/-- The terminals of the last token of a type. -/
def typeClosers : List Terminal :=
  [.name, .kwNil, .kwTrue, .kwFalse, .quoted, .rightParen, .rightBrace, .greater, .question,
    .ellipsis]

theorem typeEnds_checked :
    (typeEnds.all fun c => (productions c).all fun p => p.body.getLast?.any fun
      | .token t => typeClosers.contains t
      | .category c => typeEnds.contains c) = true := by
  decide

/-- The last token of a type. -/
theorem Tree.WellFormed.last_of_type {t : Tree} (h : t.WellFormed) {c : Category}
    (ht : t.symbol = .category c) (hc : c ∈ typeEnds) {u : Token}
    (hu : t.tokens.getLast? = some u) : u.terminal ∈ typeClosers := by
  induction h generalizing c with
  | leaf t => cases ht
  | @node c l ts hproduction hchildren ih =>
    cases ht
    have hlast := List.all_eq_true.1 (List.all_eq_true.1 typeEnds_checked c hc) _ hproduction
    obtain ⟨x, hx, hclosed⟩ := (Option.any_eq_true _ _).1 hlast
    rw [List.getLast?_map, Option.map_eq_some_iff] at hx
    obtain ⟨t, ht, rfl⟩ := hx
    obtain ⟨front, rfl⟩ := List.getLast?_eq_some_iff.1 ht
    rw [tokens, tokensOf_append, List.getLast?_append, tokensOf, tokensOf, List.append_nil] at hu
    cases t with
    | leaf tok =>
      cases hu
      exact List.contains_iff_mem.1 hclosed
    | node c' l' us =>
      have hc' : c' ∈ typeEnds := List.contains_iff_mem.1 hclosed
      -- A type has a token, so the last token of the whole is its last one.
      have hne : (Tree.node c' l' us).tokens ≠ [] := by
        refine (hchildren _ (by simp)).tokens_ne_nil ?_ ?_ <;>
          (intro heq; cases heq; exact absurd hc' (by decide))
      obtain ⟨v, hv⟩ := Option.ne_none_iff_exists'.1 fun h => hne (List.getLast?_eq_none_iff.1 h)
      rw [hv, Option.some_or] at hu
      cases hu
      exact ih _ (by simp) rfl hc' hv

/-- A type does not end with a minus sign. -/
theorem last_ne_minus {u : Token} {rest : List Char} (hu : u.terminal ∈ typeClosers)
    (hlexeme : u.terminal.lexeme? (u.text ++ rest) = some u.text.length) :
    u.text.getLast? ≠ some '-' := by
  intro hminus
  by_cases hname : u.terminal = .name
  · rw [hname] at hlexeme
    have hpart := (isName_of_lexeme? hlexeme).parts '-' (List.mem_of_getLast? hminus)
    exact absurd hpart (by decide)
  by_cases hquoted : u.terminal = .quoted
  · rw [hquoted] at hlexeme
    have hlast := string?_last (show string? (u.text ++ rest) = some u.text.length from hlexeme)
    rw [List.take_left] at hlast
    exact hlast hminus
  · have hchecked : ∀ t ∈ typeClosers, t ≠ .name → t ≠ .quoted →
        t.spelling?.any (·.getLast? ≠ some '-') = true := by decide
    obtain ⟨s, hs, hlast⟩ := (Option.any_eq_true _ _).1 (hchecked _ hu hname hquoted)
    rw [Terminal.text_of_spelling? hs hlexeme] at hminus
    exact of_decide_eq_true hlast hminus

/-! ## Parameters and what follows them -/

/-- A tree is read in a source, and a token of a terminal comes next. -/
def Followed (source : List Char) (la : Terminal) (t : Tree) : Prop :=
  ∃ q i q' j, q ∈ State.all ∧ i.In source ∧ Reads q i [t] q' j ∧ j.Sees (some la)

/-- Trees are read in a source, each but the last one before a comma. -/
def FollowedByComma (source : List Char) (la : Terminal) (ts : List Tree) : Prop :=
  ∃ front t, ts = front ++ [t] ∧ (∀ u ∈ front, Followed source .comma u) ∧ Followed source la t

namespace Tree

variable {source : List Char} {q q' : State} {i j : Place} {la : Terminal}

theorem productions_furtherGenericParameters : productions .furtherGenericParameters =
    [⟨.spliced, [.token .comma, .category .genericParameter]⟩,
      ⟨.spliced, [.category .furtherGenericParameters, .token .comma,
        .category .genericParameter]⟩] := rfl

theorem sees_of_reads {tok : Token} {ts : List Tree} (h : Reads q i (leaf tok :: ts) q' j) :
    i.Sees (some tok.terminal) := by
  cases h with
  | leaf hlook => exact ⟨_, hlook, rfl⟩

theorem membersOf_parameter {P : Tree} (hP : P.symbol = .category .genericParameter) :
    (P.members .furtherGenericParameters).filter (·.symbol = .category .genericParameter) = [P] := by
  obtain ⟨l, us, rfl⟩ := symbol_eq_category_iff.1 hP
  rfl

/-- Further parameters start with a comma, and each but the last one is followed by one. -/
theorem followed_of_further {F : Tree} (h : F.WellFormed)
    (hF : F.symbol = .category .furtherGenericParameters) (hq : q ∈ State.all) (hi : i.In source)
    (hread : Reads q i [F] q' j) (hj : j.Sees (some la)) :
    i.Sees (some .comma) ∧ FollowedByComma source la
      ((F.members .furtherGenericParameters).filter (·.symbol = .category .genericParameter)) := by
  induction h generalizing q i q' j la with
  | leaf t => cases hF
  | @node c l ts hproduction hchildren ih =>
    cases hF
    obtain ⟨q₁, -, -, hparts, -⟩ := hread.node_inv
    have hp := hproduction
    rw [productions_furtherGenericParameters] at hp
    simp only [List.mem_cons, List.not_mem_nil, or_false, Production.mk.injEq,
      map_symbol_eq_token_cons, map_symbol_eq_category_cons, List.map_eq_nil_iff] at hp
    rcases hp with ⟨-, x, _, rfl, hx, P, _, rfl, hP, rfl⟩ |
      ⟨-, F, _, rfl, hF, x, _, rfl, hx, P, _, rfl, hP, rfl⟩
    · obtain ⟨q₂, i₂, hcomma, hlast⟩ := hparts.uncons
      refine ⟨hx ▸ sees_of_reads hparts, [], P, ?_, by simp,
        q₂, i₂, q₁, j, hcomma.mem_all hq, hi.reads hcomma, hlast, hj⟩
      rw [members, if_pos rfl, membersOf, membersOf, membersOf, List.append_nil,
        List.filter_append, membersOf_parameter hP]
      simp [members, symbol]
    · obtain ⟨q₂, i₂, hfurther, hrest⟩ := hparts.uncons
      obtain ⟨q₃, i₃, hcomma, hlast⟩ := hrest.uncons
      have hq₂ := hfurther.mem_all hq
      have hi₂ := hi.reads hfurther
      obtain ⟨hfirst, front, t, heq, hfront, ht⟩ := ih F List.mem_cons_self hF hq hi hfurther
        (hx ▸ sees_of_reads hrest : i₂.Sees (some .comma))
      refine ⟨hfirst, front ++ [t], P, ?_, ?_,
        q₃, i₃, q₁, j, hcomma.mem_all hq₂, hi₂.reads hcomma, hlast, hj⟩
      · rw [members, if_pos rfl, membersOf, membersOf, membersOf, membersOf, List.append_nil,
          List.filter_append, List.filter_append, heq, membersOf_parameter hP]
        simp [members, symbol]
      · simp only [List.mem_append, List.mem_singleton]
        rintro u (hu | rfl)
        · exact hfront u hu
        · exact ht

/-- Each parameter of a list but the last one is followed by a comma. -/
theorem followed_of_list {L : Tree} (h : L.WellFormed)
    (hL : L.symbol = .category .genericParameterList) (hq : q ∈ State.all) (hi : i.In source)
    (hread : Reads q i [L] q' j) (hj : j.Sees (some la)) :
    FollowedByComma source la L.listedParameters := by
  obtain ⟨l, us, rfl⟩ := symbol_eq_category_iff.1 hL
  obtain ⟨q₁, -, -, hparts, -⟩ := hread.node_inv
  have hp := h.production
  rw [productions_genericParameterList] at hp
  simp only [List.mem_cons, List.not_mem_nil, or_false, Production.mk.injEq,
    map_symbol_eq_category_cons, List.map_eq_nil_iff] at hp
  rcases hp with ⟨-, P, _, rfl, hP, F, _, rfl, hF, rfl⟩ | ⟨-, P, _, rfl, hP, rfl⟩
  · obtain ⟨q₂, i₂, hfirst, hrest⟩ := hparts.uncons
    obtain ⟨hcomma, front, t, heq, hfront, ht⟩ := followed_of_further (h.children F (by simp)) hF
      (hfirst.mem_all hq) (hi.reads hfirst) hrest hj
    refine ⟨P :: front, t, ?_, ?_, ht⟩
    · rw [listedParameters, membersOf, membersOf, membersOf, List.append_nil, List.filter_append,
        membersOf_parameter hP, heq]
      rfl
    · simp only [List.mem_cons, forall_eq_or_imp]
      exact ⟨⟨q, i, q₂, i₂, hq, hi, hfirst, hcomma⟩, hfront⟩
  · refine ⟨[], P, ?_, by simp, q, i, q₁, j, hq, hi, hparts, hj⟩
    rw [listedParameters, membersOf, membersOf, List.append_nil, membersOf_parameter hP]
    rfl

end Tree

/-! ## Reading parameters and declarations -/

namespace State

/-- The state behind the equals sign of a default: that of a type, or that of a pack. -/
def defaulting (variadic : Bool) : State :=
  walk (if variadic then
      [.token .kwExport, .token .kwType, .token .name, .token .less, .token .name, .token .ellipsis,
        .token .equals]
    else
      [.token .kwExport, .token .kwType, .token .name, .token .less, .token .name, .token .equals])

theorem defaulting_checked :
    ∀ q ∈ afterToken .equals, ∀ i ∈ q.items,
      (i.passed = 2 → i.body = [.token .name, .token .equals, .category .typeOrPack] →
        q = defaulting false) ∧
      (i.passed = 3 →
        i.body = [.token .name, .token .ellipsis, .token .equals, .category .typeOrPack] →
        q = defaulting true) := by
  decide

theorem function_checked :
    ∀ q ∈ afterToken .kwType, (q.shift? .name).isSome → q.accepts .kwFunction = true := by
  decide

end State

/-- A default is read in a source from the state behind its equals sign, before a token of a
terminal. -/
structure ReadsDefault (source : List Char) (variadic : Bool) (e : DefaultType) (la : Terminal) :
    Prop where
  ne_nil : e.text ≠ []
  last : e.text.getLast? ≠ some '-'
  reads : ∃ i D q j, i.scanner = .defaulting variadic ∧ Reads (.defaulting variadic) i [D] q j ∧
    D.symbol = .category .typeOrPack ∧ D.parts = .ok ([.type e.type], some e.type.span) ∧
    i.rest = i.gap ++ (e.text ++ j.rest) ∧ j.rest = source.drop e.type.span.stop.offset ∧
    j.Sees (some la)

/-- A generic parameter is read in a source, before a token of a terminal. -/
structure ReadsParameter (source : List Char) (p : Parameter) (la : Terminal) : Prop where
  isName : IsName p.name
  default : ∀ e, p.default = some e → ReadsDefault source p.variadic e la

/-- What may follow a parameter, given the ones after it. -/
def terminators : List Parameter → List Terminal
  | [] => [.greater, .greaterEqual]
  | _ :: _ => [.comma]

/-- Generic parameters are read in a source one after the other. -/
def ReadsParameters (source : List Char) : List Parameter → Prop
  | [] => True
  | p :: ps => (∃ la ∈ terminators ps, ReadsParameter source p la) ∧ ReadsParameters source ps

/-- The name and the parameters of a declaration are read in a source. -/
structure ReadsDeclaration (source : List Char) (d : Declaration) : Prop where
  isName : IsName d.name
  name_ne : d.name ≠ "function".toList
  parameters : ReadsParameters source d.parameters

/-- A default is read behind its equals sign. -/
theorem readsDefault_of_reads {source : List Char} {q q' : State} {i j : Place} {D : Tree}
    {ty : TypeNode} {variadic : Bool} {la : Terminal} (hq : q ∈ State.all) (hi : i.In source)
    (hscanner : i.scanner = q) (hdefault : q = .defaulting variadic) (h : Reads q i [D] q' j)
    (hD : D.symbol = .category .typeOrPack) (hparts : D.parts = .ok ([.type ty], some ty.span))
    (hj : j.Sees (some la)) :
    ReadsDefault source variadic ⟨ty, ty.span.text source⟩ la := by
  subst hdefault
  have hwell := h.wellFormed hq D List.mem_cons_self
  have hne : D.tokens ≠ [] := hwell.tokens_ne_nil (by rw [hD]; decide) (by rw [hD]; decide)
  have htokens : Tree.tokensOf [D] = D.tokens := by rw [Tree.tokensOf, Tree.tokensOf, List.append_nil]
  obtain ⟨b, hb, -, hbne, -⟩ := h.body (by rwa [htokens])
  obtain ⟨htext, hstop⟩ := h.text hi (Tree.partsOf_singleton.2 hparts) rfl hb
  refine ⟨by rwa [htext], ?_, i, D, q', j, hscanner, h, hD, hparts, by rwa [htext], ?_, hj⟩
  · obtain ⟨u, x, hu, hx, hlexeme, hune⟩ := h.last (by rwa [htokens])
    have happend : i.gap ++ b = x ++ u.text := by
      refine (List.append_left_inj j.rest).1 ?_
      rw [List.append_assoc, List.append_assoc, ← hb, hx]
    have hsame : b.getLast? = u.text.getLast? := by
      have hlast := congrArg List.getLast? happend
      rwa [List.getLast?_append_of_ne_nil _ hbne, List.getLast?_append_of_ne_nil _ hune] at hlast
    rw [htokens] at hu
    rw [htext, hsame]
    exact last_ne_minus (hwell.last_of_type hD (by decide) hu) hlexeme
  · rw [hstop]
    exact ((hi.reads h).drop_offset).symm

/-- A parameter of a declaration is read as its tree is. -/
theorem readsParameter_of_followed {source : List Char} {P : Tree} {g : GenericParameter}
    {la : Terminal} (h : Followed source la P) (hP : Tree.IsParameter P g) :
    ReadsParameter source (Parameter.ofSyntax source g) la := by
  obtain ⟨q, i, q', j, hq, hi, hread, hj⟩ := h
  obtain ⟨l, n, dots, default, rfl, hn, hname, hdots, hdefault⟩ := hP.cases
  obtain ⟨q₁, -, -, hchildren, -⟩ := hread.node_inv
  have hisName : IsName g.name := by
    obtain ⟨q₂, i₂, hfirst, -⟩ := hchildren.uncons
    obtain ⟨p, rest, hlook, -, -⟩ := hfirst.leaf_inv
    obtain ⟨-, -, hlexeme, -, -⟩ := Place.token_of_look hlook
    rw [hn] at hlexeme
    rw [hname]
    exact isName_of_lexeme? hlexeme
  refine ⟨hisName, fun d hd => ?_⟩
  obtain ⟨ty, hty, rfl⟩ := Option.map_eq_some_iff.1 hd
  rcases hdefault with ⟨-, hnone⟩ | ⟨e, D, ty', rfl, he, hD, hwell, hsome, hparts⟩
  · rw [hnone] at hty
    contradiction
  obtain rfl : ty' = ty := Option.some.inj (hsome.symm.trans hty)
  have hsplit : Tree.leaf n :: (dots ++ [.leaf e, D]) = (.leaf n :: dots ++ [.leaf e]) ++ [D] := by
    simp
  rw [hsplit] at hread
  obtain ⟨q₂, i₂, q₃, hfront, hlast, item, hitem, hpassed, hbody⟩ := hread.item_between hq (by simp)
  obtain ⟨q₄, i₄, hwords, hsign⟩ := hfront.split
  obtain ⟨p, rest, -, hshift, rfl⟩ := hsign.leaf_inv
  rw [he] at hshift
  have hstate := State.defaulting_checked q₂ (State.mem_afterToken hshift) item hitem
  have hsymbol {t : Token} {x : Terminal} (ht : t.terminal = x) :
      (Tree.leaf t).symbol = .token x := congrArg _ ht
  have hdefaulting : q₂ = .defaulting g.variadic := by
    rcases hdots with ⟨-, rfl, hvariadic⟩ | ⟨-, ⟨d, rfl, hd⟩, hvariadic⟩
    · rw [hvariadic]
      exact hstate.1 hpassed (by simp [hbody, hsymbol hn, hsymbol he, hD])
    · rw [hvariadic]
      exact hstate.2 hpassed (by simp [hbody, hsymbol hn, hsymbol hd, hsymbol he, hD])
  have hq₂ := hfront.mem_all hq
  exact readsDefault_of_reads hq₂ (hi.reads hfront) rfl hdefaulting hlast hD hparts hj

theorem readsParameters_of_forall₂ {source : List Char} {Ps : List Tree}
    {gs : List GenericParameter} {la : Terminal} (h : FollowedByComma source la Ps)
    (hla : la ∈ terminators []) (hPs : List.Forall₂ Tree.IsParameter Ps gs) :
    ReadsParameters source (gs.map (Parameter.ofSyntax source)) := by
  obtain ⟨front, t, rfl, hfront, ht⟩ := h
  induction front generalizing gs with
  | nil =>
    cases hPs with
    | cons hP hnil =>
      cases hnil
      exact ⟨⟨la, hla, readsParameter_of_followed ht hP⟩, trivial⟩
  | cons P front ih =>
    cases hPs with
    | @cons _ g _ gs hP hrest =>
      have hgs : gs ≠ [] := by
        rintro rfl
        simpa using hrest.length_eq
      obtain ⟨g', gs, rfl⟩ := List.exists_cons_of_ne_nil hgs
      exact ⟨⟨.comma, List.mem_singleton.2 rfl,
        readsParameter_of_followed (hfront P List.mem_cons_self) hP⟩,
        ih hrest fun u hu => hfront u (List.mem_cons_of_mem _ hu)⟩

/-- The parameters of a list in brackets are read as its tree is. -/
theorem readsParameters_of_brackets {source : List Char} {q q' : State} {i j : Place} {G : Tree}
    {gs : List GenericParameter} (hq : q ∈ State.all) (hi : i.In source) (h : Reads q i [G] q' j)
    (hG : G.symbol = .category .genericParameters)
    (hgs : List.Forall₂ Tree.IsParameter G.parameters gs) :
    ReadsParameters source (gs.map (Parameter.ofSyntax source)) := by
  obtain ⟨l, us, rfl⟩ := Tree.symbol_eq_category_iff.1 hG
  have hwell := h.wellFormed hq _ List.mem_cons_self
  have hp := hwell.production
  rw [Tree.productions_genericParameters] at hp
  simp only [List.mem_cons, List.not_mem_nil, or_false, Production.mk.injEq,
    Tree.map_symbol_eq_token_cons, Tree.map_symbol_eq_category_cons, List.map_eq_nil_iff] at hp
  obtain ⟨-, x, _, rfl, hx, L, _, rfl, hL, y, _, rfl, hy, rfl⟩ := hp
  obtain ⟨q₁, -, -, hinner, -⟩ := h.node_inv
  obtain ⟨q₂, k, hopen, hinner⟩ := hinner.uncons
  obtain ⟨q₃, k', hLRead, hclose⟩ := hinner.uncons
  have hfollowed := Tree.followed_of_list (hwell.children L (by simp)) hL (hopen.mem_all hq)
    (hi.reads hopen) hLRead (Tree.sees_of_reads hclose)
  rw [hy] at hfollowed
  refine readsParameters_of_forall₂ hfollowed (by simp [terminators]) ?_
  simpa [Tree.parameters, Tree.listedParameters] using hgs

/-- The parameters of a list are read as its tree is, if its closing bracket is drawn together with
the equals sign behind it. -/
theorem readsParameters_of_drawn {source : List Char} {q q' q'' : State} {i j k : Place} {b e : Token}
    {L : Tree} {rest : List Tree} {gs : List GenericParameter} (hq : q ∈ State.all)
    (hi : i.In source) (h : Reads q i [.leaf b, L] q' j)
    (hsign : Reads q' j (.leaf e :: rest) q'' k) (he : e.terminal = .greaterEqual)
    (hL : L.symbol = .category .genericParameterList)
    (hgs : List.Forall₂ Tree.IsParameter L.listedParameters gs) :
    ReadsParameters source (gs.map (Parameter.ofSyntax source)) := by
  obtain ⟨q₁, i₁, hopen, hLRead⟩ := h.uncons
  have hq₁ := hopen.mem_all hq
  have hwell := hLRead.wellFormed hq₁ _ List.mem_cons_self
  have hfollowed := Tree.followed_of_list hwell hL hq₁ (hi.reads hopen) hLRead
    (Tree.sees_of_reads hsign)
  rw [he] at hfollowed
  exact readsParameters_of_forall₂ hfollowed (by simp [terminators]) hgs

/-- The name behind the word `type` is not the word `function`, which is a keyword there. -/
theorem isName_of_declared {q q' q'' : State} {i j k : Place} {kw n : Token}
    (hkwRead : Reads q i [.leaf kw] q' j) (hnRead : Reads q' j [.leaf n] q'' k)
    (hkw : kw.terminal = .kwType) (hn : n.terminal = .name) :
    IsName n.text ∧ n.text ≠ "function".toList := by
  obtain ⟨p, rest, -, hshift, rfl⟩ := hkwRead.leaf_inv
  obtain ⟨p', rest', hlook, hshift', rfl⟩ := hnRead.leaf_inv
  obtain ⟨-, hscan, -⟩ := Place.scan_of_look hlook
  obtain ⟨-, -, hlexeme, -, -⟩ := Place.token_of_look hlook
  rw [hkw] at hshift
  rw [hn] at hshift' hlexeme
  have hisName := isName_of_lexeme? hlexeme
  refine ⟨hisName, fun htext => ?_⟩
  have haccepts := State.function_checked q' (State.mem_afterToken hshift) (by rw [hshift']; rfl)
  rw [htext] at hisName hlexeme hscan
  rw [scan_keyword hisName (endsName_of_lexeme? hlexeme) (t := .kwFunction) rfl haccepts] at hscan
  cases hscan
  cases hn

/-- The name and the parameters of a declaration are read as its tree is. -/
theorem readsDeclaration_of_reads {source : List Char} {q q' : State} {i j : Place} {T : Tree}
    {d : TypeDeclaration} (hq : q ∈ State.all) (hi : i.In source) (h : Reads q i [T] q' j)
    (hT : Tree.IsDeclaration T d) : ReadsDeclaration source (Declaration.ofSyntax source d) := by
  obtain ⟨mark, kw, n, list, e, body, rfl, hmark, hkw, hn, hname, hbody, -, hlist⟩ := hT.cases
  obtain ⟨q₁, -, -, hchildren, -⟩ := h.node_inv
  obtain ⟨q₂, i₂, hmarkRead, hrest⟩ := hchildren.split
  have hq₂ := hmarkRead.mem_all hq
  obtain ⟨q₃, i₃, hkwRead, hrest⟩ := hrest.uncons
  obtain ⟨q₄, i₄, hnRead, hrest⟩ := hrest.uncons
  obtain ⟨q₅, i₅, hlistRead, hsign⟩ := hrest.split
  obtain ⟨hisName, hne⟩ := isName_of_declared hkwRead hnRead hkw hn
  refine ⟨by rwa [show (Declaration.ofSyntax source d).name = d.name from rfl, hname],
    fun hfunction => hne (hname.symm.trans hfunction), ?_⟩
  have hi₂ := ((hi.reads hmarkRead).reads hkwRead).reads hnRead
  have hq₄ := hnRead.mem_all (hkwRead.mem_all hq₂)
  have hparameters : (Declaration.ofSyntax source d).parameters =
      (d.generics.getD []).map (Parameter.ofSyntax source) := by
    unfold Declaration.parameters Declaration.ofSyntax
    cases d.generics <;> rfl
  rw [hparameters]
  rcases hlist with ⟨-, -, hnone⟩ | ⟨gs, hgs, hforall, hshape⟩
  · rw [hnone]
    exact trivial
  rw [hgs]
  rcases hshape with ⟨G, rfl, hG, -⟩ | ⟨b, L, rfl, hb, hL, he⟩
  · exact readsParameters_of_brackets hq₄ hi₂ hlistRead hG (by simpa using hforall)
  · refine readsParameters_of_drawn hq₄ hi₂ hlistRead hsign he hL ?_
    obtain ⟨l, us, rfl⟩ := Tree.symbol_eq_category_iff.1 hL
    simpa [Tree.parameters, Tree.listedParameters] using hforall

/-- The names and the parameters of the exported types of a module are read in it. -/
theorem ReadsBlock.declarations {file : Text} {source : List Char} {ts : List Tree}
    {own : List Part} (h : ReadsBlock source ts own) :
    ∀ d ∈ (chunkOf file source own).exports, ReadsDeclaration source d := by
  intro d hd
  obtain ⟨k, hk⟩ := List.mem_iff_getElem?.1 hd
  obtain ⟨T, hT, t, ht, rfl⟩ := exists_getElem?_of_forall₂ h.exports hk
  obtain ⟨hT, -⟩ := List.mem_filter.1 (List.mem_of_getElem? hT)
  obtain ⟨u, hu, hmember⟩ := Tree.mem_membersOf.1 hT
  obtain ⟨q, j, hreads, -⟩ := h.reads_to_end
  obtain ⟨q₁, i, q₂, j, hq₁, hi, hread⟩ := hreads.within State.initial_mem_all
    (Place.In.start source) hu (Tree.Within.member hmember)
  exact readsDeclaration_of_reads hq₁ hi hread ht

end TypedLinks.Luau
