import Mathlib
import TypedLinks.Proofs.Forwarding.Forwarded
import TypedLinks.Proofs.Link.Effect
import TypedLinks.Proofs.Link.Stops
import TypedLinks.Proofs.Link.Written
import TypedLinks.Proofs.Syntax.Equality

/-!
# Decoding a link file that was written

What is written into a link file is parsed again, as a link file with the same require call, the same
text around it, and the declarations that were forwarded. There is one condition: three kinds of
text are copied verbatim, the leading trivia, the require call and the defaults, and a long bracket
that such a text leaves open has to stay open where the text is written.
-/

namespace TypedLinks

open Luau Luau.Lexeme

/-! ## Forwarded declarations can be read -/

@[simp] theorem Parameter.isApplicable_forward (names : List Name) (p : Parameter) :
    (p.forward names).isApplicable = p.isApplicable := by
  simp only [isApplicable, name_forward, variadic_forward]

theorem Declaration.body_forward (names : List Name) (d : Declaration) :
    (d.forward names).body = moduleBinding ++ (['.'] ++ (d.name ++
      angled ((d.forward names).parameters.map Parameter.reference))) := by
  rw [parameters_forward, List.map_map]
  have hreference : Parameter.reference ∘ Parameter.forward names = Parameter.reference :=
    funext fun p => p.reference_forward names
  rw [hreference]
  change moduleBinding ++ ['.'] ++ d.name ++ _ = _
  simp only [List.append_assoc]

@[simp] theorem Declaration.isApplicable_forward (names : List Name) (d : Declaration) :
    (d.forward names).isApplicable = d.isApplicable := by
  simp [isApplicable, List.all_map, Function.comp_def]

theorem all_isApplicable_forwardAfter (earlier ds : List Declaration) :
    (forwardAfter earlier ds).all Declaration.isApplicable = ds.all Declaration.isApplicable := by
  induction ds generalizing earlier with
  | nil => rfl
  | cons d ds ih => rw [forwardAfter, List.all_cons, List.all_cons, ih, d.isApplicable_forward]

/-- Forwarding leaves it open whether the parameters of some declarations can be applied. -/
theorem all_isApplicable_forwardAll (ds : List Declaration) :
    (forwardAll ds).all Declaration.isApplicable = ds.all Declaration.isApplicable :=
  all_isApplicable_forwardAfter [] ds

namespace Link

/-- The brackets that the defaults of some parameters leave open stay open where the parameters are
rendered in front of a token. -/
def DefaultsKeepOpen (m : List Char) (last : Terminal × List Char) : List Parameter → Prop
  | [] => True
  | p :: ps => (∀ e, p.default = some e → KeepsOpen e.text (m.drop e.type.span.stop.offset)
      ((following last (ps.map Parameter.render)).1.spelled ++
        (following last (ps.map Parameter.render)).2)) ∧ DefaultsKeepOpen m last ps

/-- The brackets that the defaults of some declarations leave open stay open where the declarations
are written into a link file. -/
def DeclarationsKeepOpen (m separator trailer : List Char) : List Declaration → Prop
  | [] => True
  | d :: ds => DefaultsKeepOpen m (.greater, [' '] ++ (['='] ++ ([' '] ++ (d.body ++
      (separator ++ renderRest separator trailer ds))))) d.parameters ∧
        DeclarationsKeepOpen m separator trailer ds

section Forwarded

variable {m separator trailer : List Char}

theorem isName_of_readsParameters {ps : List Parameter} (h : ReadsParameters m ps) :
    ∀ p ∈ ps, IsName p.name := by
  induction ps with
  | nil => simp
  | cons p ps ih =>
    obtain ⟨⟨la, -, hp⟩, hps⟩ := h
    exact List.forall_mem_cons.2 ⟨hp.isName, ih hps⟩

theorem terminators_subset (ps : List Parameter) : terminators ps ⊆ defaultFollowers := by
  cases ps with
  | nil => decide
  | cons p ps => exact List.cons_subset.2 ⟨by decide, List.nil_subset _⟩

/-- The defaults that forwarding keeps are carried. -/
theorem carriesDefaults_forward {names : List Name} {last : Terminal × List Char}
    {ps : List Parameter} (h : ReadsParameters m ps)
    (hopen : DefaultsKeepOpen m last (ps.map (Parameter.forward names))) :
    CarriesDefaults m last (ps.map (Parameter.forward names)) := by
  induction ps with
  | nil => trivial
  | cons p ps ih =>
    obtain ⟨⟨la, hla, hp⟩, hps⟩ := h
    refine ⟨fun e he => ⟨⟨la, terminators_subset ps hla, ?_⟩, hopen.1 e he⟩, ih hps hopen.2⟩
    rw [Parameter.variadic_forward]
    exact hp.default e (Parameter.default_forward_eq_some_iff.1 he).1

/-- The declarations of a module can be read where they are forwarded. -/
theorem allRereadable_forwardAfter {earlier ds : List Declaration}
    (h : ∀ d ∈ ds, ReadsDeclaration m d)
    (hopen : DeclarationsKeepOpen m separator trailer (forwardAfter earlier ds)) :
    AllRereadable m separator trailer (forwardAfter earlier ds) := by
  induction ds generalizing earlier with
  | nil => trivial
  | cons d ds ih =>
    rw [List.forall_mem_cons] at h
    refine ⟨?_, ih h.2 hopen.2⟩
    have hparameters := d.parameters_forward (scope earlier d)
    exact
      { isName := h.1.isName
        name_ne := h.1.name_ne
        names := by
          rw [hparameters, List.forall_mem_map]
          exact fun p hp => (p.name_forward _).symm ▸ isName_of_readsParameters h.1.parameters p hp
        defaults := by
          have hdefaults := hopen.1
          rw [hparameters] at hdefaults ⊢
          exact carriesDefaults_forward h.1.parameters hdefaults
        body := d.body_forward _ }

end Forwarded

/-! ## The plan -/

namespace Plan

/-- The line separator that is written. -/
def separator (p : Plan) : List Char := lineSeparator p.chunk.source

/-- What is written behind the last statement. -/
def trailer (p : Plan) : List Char :=
  if p.chunk.trailingTrivia = [] then p.separator else p.chunk.trailingTrivia

/-- The text of the require call. -/
def callText (p : Plan) : List Char := p.call.span.text p.chunk.source

/-- What is copied into the link file leaves no bracket open that is closed there. -/
structure KeepsOpen (p : Plan) (module : Chunk) : Prop where
  header : Luau.KeepsOpen p.chunk.leadingTrivia
    (p.chunk.source.drop p.chunk.leadingTrivia.length)
    ((p.render module.exports).drop p.chunk.leadingTrivia.length)
  call : Luau.KeepsOpen p.callText (p.chunk.source.drop p.call.span.stop.offset)
    (p.separator ++ renderRest p.separator p.trailer (forwardAll module.exports))
  defaults : DeclarationsKeepOpen module.source p.separator p.trailer (forwardAll module.exports)

/-- A chunk decodes to what a plan wrote: the text around the statements, the require call, and the
declarations that were forwarded. -/
structure Decodes (p : Plan) (declarations : List Declaration) (chunk : Chunk)
    (call : Expression) : Prop where
  requireCall : requireCall chunk.block = .ok call
  leadingTrivia : chunk.leadingTrivia = p.chunk.leadingTrivia
  trailingTrivia : chunk.trailingTrivia = p.trailer
  callText : call.span.text chunk.source = p.callText
  path : RequirePath.ofCall call = RequirePath.ofCall p.call
  exports : chunk.exports.map Declaration.written =
    (forwardAll declarations).map Declaration.written

end Plan

/-! ## Reading the written text -/

section Blocks

theorem binding?_typeDeclarations (acc : Option Expression) {ts : List TypeDeclaration}
    (h : ∀ t ∈ ts, t.exported = true) :
    binding? acc (ts.map Statement.typeDeclaration) = .ok acc := by
  induction ts with
  | nil => rfl
  | cons t ts ih =>
    rw [List.forall_mem_cons] at h
    have hexported : (Statement.typeDeclaration t).exported?.isSome = true := by
      rw [Statement.exported?, if_pos h.1]
      rfl
    cases acc <;> simp [binding?, bound?, hexported, ih h.2]

/-- The parts of a block that was written. -/
def writtenParts (span : Span) (call : Expression) (ts : List TypeDeclaration) (s s' : Span) :
    List Part :=
  [.statement (.localAssignment span [moduleBinding] [call])] ++
    ts.map (.statement ∘ .typeDeclaration) ++ [.returned ⟨s, [.name s' moduleBinding]⟩]

variable {span s s' : Span} {call : Expression} {ts : List TypeDeclaration}

theorem chunkOf_writtenParts (file : Text) (source : List Char) (span s s' : Span)
    (call : Expression) (ts : List TypeDeclaration) :
    chunkOf file source (writtenParts span call ts s s') = ⟨file, source,
      ⟨.localAssignment span [moduleBinding] [call] :: ts.map .typeDeclaration,
        some ⟨s, [.name s' moduleBinding]⟩⟩⟩ := by
  have hstatements : (ts.map (Part.statement ∘ .typeDeclaration)).filterMap Part.statement? =
      ts.map .typeDeclaration := by
    rw [List.filterMap_map, ← List.filterMap_eq_map]
    rfl
  have hreturned : (ts.map (Part.statement ∘ .typeDeclaration)).findSome? Part.returned? = none :=
    List.findSome?_eq_none_iff.2 (List.forall_mem_map.2 fun _ _ => rfl)
  unfold chunkOf writtenParts
  rw [List.filterMap_append, List.filterMap_append, List.findSome?_append, List.findSome?_append,
    hstatements, hreturned]
  simp [Part.statement?, Part.returned?]

/-- The require call of a block that was written. -/
theorem requireCall_writtenParts (file : Text) (source : List Char) (hcall : call.isCall = true)
    (h : ∀ t ∈ ts, t.exported = true) :
    requireCall (chunkOf file source (writtenParts span call ts s s')).block = .ok call := by
  rw [chunkOf_writtenParts]
  have hbinding := binding?_typeDeclarations (some call) h
  simp [requireCall, returned, calledBy, isBinding, binding?, bound?, hbinding, hcall, bind,
    Except.bind, pure, Except.pure]

/-- The exported types of a block that was written. -/
theorem exports_writtenParts (file : Text) (source : List Char) (h : ∀ t ∈ ts, t.exported = true) :
    (chunkOf file source (writtenParts span call ts s s')).exports =
      ts.map (Declaration.ofSyntax source) := by
  rw [chunkOf_writtenParts, Chunk.exports]
  congr 1
  simp only [List.filterMap_cons, Statement.exported?]
  induction ts with
  | nil => rfl
  | cons t ts ih =>
    rw [List.forall_mem_cons] at h
    rw [List.map_cons, List.filterMap_cons, Statement.exported?, if_pos h.1, ih h.2]

end Blocks

/-! ## Parsing the written text -/

/-- The chunk of a plan is parsed from its source, and its require call leads somewhere. -/
structure Plan.Parsed (file : Text) (p : Plan) : Prop where
  parse : Luau.parse file p.chunk.source = .ok p.chunk
  requireCall : Link.requireCall p.chunk.block = .ok p.call
  path : ∃ path, RequirePath.ofCall p.call = .ok path

theorem plan_parsed {tree : Node} {link : Path} {source : List Char} {p : Plan}
    (h : (plan tree link source).result = .ok p) : p.Parsed link.text ∧ p.chunk.source = source := by
  obtain ⟨path, target, hparse, hcall, hpath, -, -⟩ := result_plan_eq_ok_iff.1 h
  have hsource := source_of_parse hparse
  exact ⟨⟨by rw [hsource, hparse], hcall, path, hpath⟩, hsource⟩

namespace Plan

variable {file : Text} {p : Plan} {module : Chunk}

theorem separator_mem (p : Plan) : p.separator ∈ [['\n'], ['\r', '\n']] := lineSeparator_mem _

theorem render_eq (p : Plan) (ds : List Declaration) : p.render ds =
    p.chunk.leadingTrivia ++ (Terminal.kwLocal.spelled ++ ([' '] ++ (moduleBinding ++ ([' '] ++
      (['='] ++ ([' '] ++ (p.callText ++
        (p.separator ++ renderRest p.separator p.trailer (forwardAll ds))))))))) :=
  renderLink_eq _ _ _ _ _

theorem restWord_forwardAll {ds : List Declaration} (h : ds ≠ []) :
    restWord (forwardAll ds) = .kwExport := by
  obtain ⟨d, ds, rfl⟩ := List.exists_cons_of_ne_nil h
  rfl

/-- The block of a link file, and its require call. -/
theorem Parsed.exists_block (h : p.Parsed file) :
    ∃ ts own r, ReadsBlock p.chunk.source ts own ∧ p.chunk = chunkOf file p.chunk.source own ∧
      own.findSome? Part.returned? = some r ∧ ∃ b v, ReadsCall p.chunk.source p.call b v := by
  obtain ⟨ts, own, hblock, -, hchunk⟩ := parse_eq_ok_iff.1 h.parse
  obtain ⟨path, hpath⟩ := h.path
  have hrequire := h.requireCall
  rw [hchunk] at hrequire
  obtain ⟨⟨r, hr⟩, hcall⟩ := hblock.readsCall hrequire hpath
  exact ⟨ts, own, r, hblock, hchunk, hr, hcall⟩

/-- The local assignment of the require call is read at the start of the written text. -/
theorem Parsed.reads_assignment (h : p.Parsed file) (hexports : module.exports ≠ [])
    (hopen : p.KeepsOpen module) :
    ∃ S j call span span', Reads .initial (.start (p.render module.exports)) [S] .stating j ∧
      j.rest = p.separator ++ renderRest p.separator p.trailer (forwardAll module.exports) ∧
      j.scanner.accepts .kwExport = true ∧
      S.parts = .ok ([.statement (.localAssignment span [moduleBinding] [call])], some span') ∧
      call.unplaced = p.call.unplaced ∧
      call.span.text (p.render module.exports) = p.callText ∧
      gap 0 (p.render module.exports) = p.chunk.leadingTrivia := by
  obtain ⟨ts, own, r, hblock, hchunk, hr, b, v, hcall⟩ := h.exists_block
  have hheader : p.chunk.leadingTrivia = gap 0 p.chunk.source :=
    hchunk ▸ hblock.leadingTrivia
  obtain ⟨rest, hrest, hnext⟩ := nextStatement_rest p.separator_mem p.trailer
    (forwardAll module.exports)
  rw [restWord_forwardAll hexports] at hnext
  have htext : p.callText = "require".toList ++ b := hcall.text
  have hgap := hopen.header
  rw [render_eq, List.drop_left] at hgap
  have hgap : gap 0 (p.chunk.leadingTrivia ++ (Terminal.kwLocal.spelled ++ _)) = _ :=
    gap_carry (hheader ▸ hblock.startsToken hr)
      (IsName.startsToken (show IsName Terminal.kwLocal.spelled from rfl) _) hgap
      (by rw [hheader, gap_append_drop])
  have hlocal : Place.Shows (.start (p.render module.exports)) .kwLocal Terminal.kwLocal.spelled
      ([' '] ++ (moduleBinding ++ ([' '] ++ (['='] ++ ([' '] ++ ("require".toList ++ (b ++
        (p.separator ++ renderRest p.separator p.trailer (forwardAll module.exports))))))))) := by
    have hrender := p.render_eq module.exports
    rw [htext, List.append_assoc] at hrender
    refine shows_of_scan hrender ?_ (scan_keyword rfl (by rintro c ⟨⟩; decide) rfl
      (show State.initial.accepts .kwLocal = true by decide))
    rwa [htext, List.append_assoc] at hgap
  have hkeeps := hopen.call
  rw [htext, hcall.rest] at hkeeps
  obtain ⟨S, j, call, span, span', hread, hj, hacc, hparts, hsame, hcallText⟩ :=
    hcall.reads_assignment hkeeps.suffix hnext (Place.In.start _) hlocal
  rw [← render_eq] at hgap
  exact ⟨S, j, call, span, span', hread, hj, hacc, hparts, hsame, hcallText.trans htext.symm, hgap⟩

/-- The require call ends with its closing parenthesis. -/
theorem Parsed.callText_last (h : p.Parsed file) : p.callText.getLast? = some ')' := by
  obtain ⟨-, -, -, -, -, -, b, v, hcall⟩ := h.exists_block
  rw [show p.callText = "require".toList ++ b from hcall.text, List.getLast?_append, hcall.last]
  rfl

/-- What is written behind the last statement is trivia. -/
theorem Parsed.gap_trailer (h : p.Parsed file) : gap 0 p.trailer = p.trailer ∧ p.trailer ≠ [] := by
  unfold trailer
  split
  · have hblank : ∀ g ∈ [['\n'], ['\r', '\n']], gap 0 g = g ∧ g ≠ [] := by decide
    exact hblank _ p.separator_mem
  · rename_i hne
    refine ⟨?_, hne⟩
    obtain ⟨ts, own, r, hblock, hchunk, hr, -⟩ := h.exists_block
    obtain ⟨q, j, hreads, hj⟩ := hblock.reads_to_end
    rw [hchunk, hblock.trailingTrivia hr hreads]
    exact hj

/-- The declarations of a module can be read where they are written. -/
theorem allRereadable {file' : Text} (hmodule : Luau.parse file' module.source = .ok module)
    (hopen : p.KeepsOpen module) :
    AllRereadable module.source p.separator p.trailer (forwardAll module.exports) := by
  obtain ⟨us, parts, hblock, -, hchunk⟩ := parse_eq_ok_iff.1 hmodule
  refine allRereadable_forwardAfter (fun d hd => ?_) hopen.defaults
  rw [hchunk] at hd
  exact hblock.declarations d hd

/-- The text that a plan writes decodes to what was written, if every parameter can be applied. -/
theorem Parsed.exists_decodes (h : p.Parsed file) (hfile : file ≠ []) {file' : Text}
    (hmodule : Luau.parse file' module.source = .ok module) (hexports : module.exports ≠ [])
    (hopen : p.KeepsOpen module)
    (happlicable : module.exports.all Declaration.isApplicable = true) :
    ∃ chunk call, Luau.parse file (p.render module.exports) = .ok chunk ∧
      p.Decodes module.exports chunk call := by
  obtain ⟨path, hpath⟩ := h.path
  obtain ⟨S, j, call, span, span', hS, hj, hacc, hparts, hsame, hcallText, hgap⟩ :=
    h.reads_assignment hexports hopen
  obtain ⟨S', k, ts, span'', hS', hk, haccReturn, hparts', hexported, hwritten⟩ :=
    reads_declarations p.separator_mem (allRereadable hmodule hopen)
      (List.all_eq_true.1 ((all_isApplicable_forwardAll _).trans happlicable)) (Place.In.start _) hS
      hj (by rw [restWord_forwardAll hexports, hacc]) hparts
  obtain ⟨rest, hrest, hnext⟩ := nextStatement_rest p.separator_mem p.trailer []
  obtain ⟨htrailer, -⟩ := h.gap_trailer
  obtain ⟨vs, s, s', hwhole, q, l, hreads, hl⟩ := readsBlock_of_return hS' hparts'
    (endsName_of_gap htrailer) htrailer (List.append_cancel_left hrest ▸ hnext.shows hk haccReturn)
  have hreturned : (writtenParts span call ts s s').findSome? Part.returned? =
      some ⟨s, [.name s' moduleBinding]⟩ :=
    congrArg (·.block.last) (chunkOf_writtenParts file (p.render module.exports) span s s' call ts)
  have hpath' := RequirePath.ofCall_congr hsame hpath
  refine ⟨_, call, parse_eq_ok_iff.2 ⟨vs, _, hwhole, fun h => absurd h hfile, rfl⟩, ?_⟩
  exact
    { requireCall := by
        refine requireCall_writtenParts file _ ?_ hexported
        obtain ⟨_, _, _, rfl⟩ := call_of_ofCall hpath'
        rfl
      leadingTrivia := hwhole.leadingTrivia.trans hgap
      trailingTrivia := (hwhole.trailingTrivia hreturned hreads).trans hl
      callText := hcallText
      path := hpath'.trans hpath.symm
      exports := by
        refine (congrArg (List.map Declaration.written)
          (exports_writtenParts file _ hexported)).trans ?_
        rw [List.map_map]
        exact hwritten }

/-- The text that a plan writes is no source, if a parameter cannot be applied. -/
theorem Parsed.parse_ne_ok (h : p.Parsed file) {file' : Text}
    (hmodule : Luau.parse file' module.source = .ok module) (hexports : module.exports ≠ [])
    (hopen : p.KeepsOpen module)
    (hstop : module.exports.all Declaration.isApplicable = false) (file'' : Text) (chunk : Chunk) :
    Luau.parse file'' (p.render module.exports) ≠ .ok chunk := by
  obtain ⟨S, j, call, span, span', hS, hj, hacc, hparts, -⟩ := h.reads_assignment hexports hopen
  obtain ⟨ts, q, k, hread, hstuck⟩ := stops_declarations p.separator_mem (allRereadable hmodule hopen)
    (by simpa using List.all_eq_false.1 ((all_isApplicable_forwardAll _).trans hstop))
    (Place.In.start _) hS hj (by rw [restWord_forwardAll hexports, hacc]) hparts
  exact parse_ne_ok_of_stuck hread hstuck chunk

/-- The text that a plan writes decodes to what was written exactly if every parameter can be
applied. -/
theorem Parsed.exists_decodes_iff (h : p.Parsed file) (hfile : file ≠ []) {file' : Text}
    (hmodule : Luau.parse file' module.source = .ok module) (hexports : module.exports ≠ [])
    (hopen : p.KeepsOpen module) :
    (∃ chunk call, Luau.parse file (p.render module.exports) = .ok chunk ∧
      p.Decodes module.exports chunk call) ↔
        module.exports.all Declaration.isApplicable = true := by
  refine ⟨fun ⟨chunk, _, hparse, _⟩ => ?_, h.exists_decodes hfile hmodule hexports hopen⟩
  cases hall : module.exports.all Declaration.isApplicable with
  | true => rfl
  | false => exact absurd hparse (h.parse_ne_ok hmodule hexports hopen hall file chunk)

/-! ## Files without long brackets -/

theorem defaultsKeepOpen_of_opensBracket {m tail : List Char} {ps : List Parameter}
    (h : ∀ q ∈ ps, ∀ e, q.default = some e → opensBracket e.text = false) :
    DefaultsKeepOpen m (.greater, tail) ps := by
  induction ps with
  | nil => trivial
  | cons q ps ih =>
    rw [List.forall_mem_cons] at h
    refine ⟨fun e he => keepsOpen_of_opensBracket (h.1 e he) ?_, ih h.2⟩
    intro c hc
    cases ps <;> cases hc <;> decide

theorem declarationsKeepOpen_of_opensBracket {m separator trailer : List Char}
    {ds : List Declaration}
    (h : ∀ d ∈ ds, ∀ q ∈ d.parameters, ∀ e, q.default = some e → opensBracket e.text = false) :
    DeclarationsKeepOpen m separator trailer ds := by
  induction ds with
  | nil => trivial
  | cons d ds ih =>
    rw [List.forall_mem_cons] at h
    exact ⟨defaultsKeepOpen_of_opensBracket h.1, ih h.2⟩

/-- Texts that open no long bracket can be copied. -/
theorem keepsOpen_of_opensBracket (hheader : opensBracket p.chunk.leadingTrivia = false)
    (hcall : opensBracket p.callText = false)
    (hdefaults : ∀ d ∈ forwardAll module.exports, ∀ q ∈ d.parameters, ∀ e, q.default = some e →
      opensBracket e.text = false) : p.KeepsOpen module where
  header := by
    rw [render_eq, List.drop_left]
    refine Luau.keepsOpen_of_opensBracket hheader ?_
    rintro c ⟨⟩
    decide
  call := by
    refine Luau.keepsOpen_of_opensBracket hcall ?_
    have hseparator := p.separator_mem
    simp only [List.mem_cons, List.not_mem_nil, or_false] at hseparator
    intro c hc
    rcases hseparator with hseparator | hseparator <;> rw [hseparator] at hc <;> cases hc <;> decide
  defaults := declarationsKeepOpen_of_opensBracket hdefaults

end Plan

open World

/-- In a text that was written the same module is found again. -/
theorem plan_again {tree : Node} {link : Path} {source n : List Char} {p : Plan}
    {declarations : List Declaration} {chunk : Chunk} {call : Expression}
    (h : (plan tree link source).result = .ok p) (hparse : parse link.text n = .ok chunk)
    (hdecodes : p.Decodes declarations chunk call) :
    (plan tree link n).result = .ok ⟨chunk, call, p.module⟩ := by
  obtain ⟨path, target, -, -, hpath, htarget, hfile⟩ := result_plan_eq_ok_iff.1 h
  exact result_plan_eq_ok_iff.2 ⟨path, target, hparse, hdecodes.requireCall,
    hdecodes.path.trans hpath, htarget, hfile⟩

/-- The text that is written into a link file decodes to what was written exactly if every parameter
can be applied, unless a long bracket that a copied text leaves open is closed by another one. -/
theorem written_link_decodes {tree : Node} {link : Path} {source n : List Char} {w : World}
    (h : (exec (update tree link source : ExceptT Crash (StateM World) Outcome) w).1 =
      .ok (.changed n)) :
    ∃ p module, Finds w.files w.folder tree link source p module ∧ (p.KeepsOpen module →
      ((∃ chunk call, parse link.text n = .ok chunk ∧ p.Decodes module.exports chunk call) ↔
        module.exports.all Declaration.isApplicable = true)) := by
  obtain ⟨w', hexec, -⟩ := exec_update tree link source w
  rw [hexec] at h
  obtain ⟨p, module, hfinds, houtcome⟩ := exists_finds h rfl
  obtain ⟨hexports, rfl, -⟩ := Plan.outcome_eq_changed_iff.1 houtcome.symm
  exact ⟨p, module, hfinds, fun hopen => (plan_parsed hfinds.plan).1.exists_decodes_iff
    (Path.text_ne_nil link) hfinds.module.parse hexports hopen⟩

/-! ## A link file of a generic type -/

namespace Sample

/-- A link file with a comment, and its module. -/
def world : World where
  files := ⟨[(["A.lua"], .file (Utf8.encode "--\nreturn require(game.a)".toList)),
    (["a.lua"], .file (Utf8.encode "export type A<T,B=T>=T".toList))]⟩

/-- The sourcemap of the module. -/
def tree : Node :=
  .mk "Root" "Folder" [] [.mk "a" "ModuleScript" [.absolute ["a.lua"]] []]

def link : Path := .absolute ["A.lua"]

def planOf : Plan :=
  let call : Expression := .call ⟨⟨10, 2, 8⟩, ⟨25, 2, 23⟩⟩
    (.name ⟨⟨10, 2, 8⟩, ⟨17, 2, 15⟩⟩ "require".toList)
    [.field ⟨⟨18, 2, 16⟩, ⟨24, 2, 22⟩⟩ (.name ⟨⟨18, 2, 16⟩, ⟨22, 2, 20⟩⟩ "game".toList) "a".toList]
    .parentheses
  ⟨⟨"/A.lua", "--\nreturn require(game.a)".toList,
    ⟨[], some ⟨⟨⟨3, 2, 1⟩, ⟨25, 2, 23⟩⟩, [call]⟩⟩⟩, call, .absolute ["a.lua"]⟩

/-- The chunk of the module. -/
def module : Chunk :=
  ⟨"/a.lua", "export type A<T,B=T>=T".toList,
    ⟨[.typeDeclaration ⟨⟨.start, ⟨22, 1, 23⟩⟩, true, "A".toList,
      some [⟨⟨⟨14, 1, 15⟩, ⟨15, 1, 16⟩⟩, "T".toList, false, none⟩,
        ⟨⟨⟨16, 1, 17⟩, ⟨19, 1, 20⟩⟩, "B".toList, false,
          some (.reference ⟨⟨18, 1, 19⟩, ⟨19, 1, 20⟩⟩ none "T".toList [])⟩],
      .reference ⟨⟨21, 1, 22⟩, ⟨22, 1, 23⟩⟩ none "T".toList []⟩], none⟩⟩

/-- The new text of the link file. -/
def newText : List Char :=
  "--\nlocal REQUIRED_MODULE = require(game.a)\n".toList ++
    "export type A<T, B = T> = REQUIRED_MODULE.A<T, B>\nreturn REQUIRED_MODULE\n".toList

theorem read_module : world.files.read world.folder (.absolute ["a.lua"]) =
    .ok (Utf8.encode module.source) :=
  FileSystem.read_eq_ok_iff.2 ⟨["a.lua"], eq_ok_of_toOption (by decide), rfl⟩

theorem parse_link : Luau.parse link.text planOf.chunk.source = .ok planOf.chunk :=
  eq_ok_of_toOption (by decide +kernel)

theorem parse_module : Luau.parse (Path.absolute ["a.lua"]).text module.source = .ok module :=
  eq_ok_of_toOption (by decide +kernel)

theorem finds : Finds world.files world.folder tree link planOf.chunk.source planOf module where
  plan := result_plan_eq_ok_iff.2 ⟨["game", "a"],
    ⟨.mk "a" "ModuleScript" [.absolute ["a.lua"]] [], [tree]⟩, parse_link, rfl, rfl, rfl, rfl⟩
  module := ⟨_, _, read_module, Utf8.decode_encode _, parse_module⟩

theorem render_eq : planOf.render module.exports = newText := by
  unfold newText
  rw [String.toList_ofList, String.toList_ofList]
  decide +kernel

theorem outcome_eq : planOf.outcome module.exports = .changed newText :=
  Plan.outcome_eq_changed_iff.2 ⟨List.cons_ne_nil _ _, render_eq, by decide +kernel⟩

/-- The plan of the link file if it lies at another path. -/
def planAt (p : Path) : Plan := { planOf with chunk := { planOf.chunk with file := p.text } }

theorem parse_at (p : Path) : Luau.parse p.text planOf.chunk.source = .ok (planAt p).chunk :=
  parse_named parse_link (Path.text_ne_nil p)

theorem outcome_at (p : Path) : (planAt p).outcome module.exports = .changed newText := outcome_eq

theorem exec_update_link : (exec (update tree link planOf.chunk.source :
    ExceptT Crash (StateM World) Outcome) world).1 = .ok (.changed newText) := by
  obtain ⟨w', hexec, -⟩ := exec_update tree link planOf.chunk.source world
  rw [hexec, finds.updated, outcome_eq]

theorem keepsOpen : planOf.KeepsOpen module :=
  Plan.keepsOpen_of_opensBracket (by decide) (by decide) (by decide)

end Sample

open Sample in
/-- A default is decoded. -/
theorem written_link_decodes_default : ∃ chunk call, parse link.text newText = .ok chunk ∧
    planOf.Decodes module.exports chunk call := by
  obtain ⟨p, m, hfinds, h⟩ := written_link_decodes exec_update_link
  obtain ⟨rfl, rfl⟩ := finds.unique hfinds
  exact (h keepsOpen).2 rfl

end Link

end TypedLinks
