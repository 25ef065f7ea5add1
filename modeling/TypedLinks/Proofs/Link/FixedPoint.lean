import TypedLinks.Proofs.Forwarding.Settled
import TypedLinks.Proofs.Link.LineEnds

/-!
# Updating a link file again

A link file that was updated is updated again to the same text, if that text can be decoded, and if
the line separator that is found in it is the one that it was written with. The latter fails exactly
if the link file had no carriage return in front of a line feed, and a default brings one along.
-/

namespace TypedLinks

open Luau

/-! ## Forwarding what was written -/

theorem map_eq_map_of_factorsThrough {α β γ : Type} {f : α → β} {g : α → γ} {xs ys : List α}
    (h : xs.map f = ys.map f) (hg : g.FactorsThrough f) : xs.map g = ys.map g := by
  induction xs generalizing ys with
  | nil => rw [List.map_eq_nil_iff.1 h.symm]
  | cons x xs ih =>
    obtain ⟨y, ys, rfl, hy, hys⟩ := List.map_eq_cons_iff.1 h.symm
    rw [List.map_cons, List.map_cons, hg hy, ih hys.symm]

theorem all_eq_all_of_factorsThrough {α β : Type} {f : α → β} {g : α → Bool} {xs ys : List α}
    (h : xs.map f = ys.map f) (hg : g.FactorsThrough f) : xs.all g = ys.all g := by
  have hall := congrArg (List.all · id) (map_eq_map_of_factorsThrough h hg)
  rwa [List.all_map, List.all_map] at hall

namespace Parameter

variable {p q : Parameter}

theorem written_eq_iff : p.written = q.written ↔ p.name = q.name ∧ p.variadic = q.variadic ∧
    p.default.map (fun e => (e.type.unplaced, e.text)) =
      q.default.map fun e => (e.type.unplaced, e.text) := by
  rw [written, written, Prod.mk.injEq, Prod.mk.injEq]

theorem reference_congr (h : p.written = q.written) : p.reference = q.reference := by
  obtain ⟨hname, hvariadic, -⟩ := written_eq_iff.1 h
  rw [reference, reference, hname, hvariadic]

theorem render_congr (h : p.written = q.written) : p.render = q.render := by
  obtain ⟨-, -, hdefault⟩ := written_eq_iff.1 h
  unfold render
  rw [reference_congr h]
  cases hp : p.default <;> cases hq : q.default <;> simp [hp, hq] at hdefault
  · rfl
  · dsimp only
    rw [hdefault.2]

theorem isDropped_congr (h : p.written = q.written) (names : List Name) :
    p.isDropped names = q.isDropped names := by
  obtain ⟨-, -, hdefault⟩ := written_eq_iff.1 h
  unfold isDropped
  cases hp : p.default <;> cases hq : q.default <;> simp [hp, hq] at hdefault
  · rfl
  · rw [Option.any_some, Option.any_some, ← TypeNode.isResolvable_unplaced, hdefault.1,
      TypeNode.isResolvable_unplaced]

theorem written_forward_congr (h : p.written = q.written) (names : List Name) :
    (p.forward names).written = (q.forward names).written := by
  obtain ⟨hname, hvariadic, -⟩ := written_eq_iff.1 h
  rw [forward, forward, isDropped_congr h]
  split
  · exact written_eq_iff.2 ⟨hname, hvariadic, rfl⟩
  · exact h

end Parameter

namespace Declaration

variable {d e : Declaration}

theorem written_eq_iff : d.written = e.written ↔ d.name = e.name ∧
    d.parameters.map Parameter.written = e.parameters.map Parameter.written ∧ d.body = e.body := by
  rw [written, written, Prod.mk.injEq, Prod.mk.injEq]

theorem render_congr (h : d.written = e.written) : d.render = e.render := by
  obtain ⟨hname, hparameters, hbody⟩ := written_eq_iff.1 h
  have hrender : d.parameters.map Parameter.render = e.parameters.map Parameter.render :=
    map_eq_map_of_factorsThrough hparameters fun _ _ => Parameter.render_congr
  unfold render
  rw [hname, hbody, hrender]

theorem written_forward_congr (h : d.written = e.written) (names : List Name) :
    (d.forward names).written = (e.forward names).written := by
  obtain ⟨hname, hparameters, -⟩ := written_eq_iff.1 h
  have hforward : d.parameters.map (fun p => (p.forward names).written) =
      e.parameters.map fun p => (p.forward names).written :=
    map_eq_map_of_factorsThrough hparameters fun _ _ h => Parameter.written_forward_congr h names
  have hreference : d.parameters.map Parameter.reference = e.parameters.map Parameter.reference :=
    map_eq_map_of_factorsThrough hparameters fun _ _ => Parameter.reference_congr
  rw [written_eq_iff, parameters_forward, parameters_forward, List.map_map, List.map_map]
  refine ⟨hname, hforward, ?_⟩
  rw [forward, forward, hname, hreference]

theorem scope_congr {ds es : List Declaration} (hall : ds.map written = es.map written)
    (h : d.written = e.written) : scope ds d = scope es e := by
  obtain ⟨hname, hparameters, -⟩ := written_eq_iff.1 h
  have hnames : d.parameters.map (·.name) = e.parameters.map (·.name) :=
    map_eq_map_of_factorsThrough hparameters fun _ _ h => (Parameter.written_eq_iff.1 h).1
  have hearlier : ds.map (·.name) = es.map (·.name) :=
    map_eq_map_of_factorsThrough hall fun _ _ h => (written_eq_iff.1 h).1
  rw [scope, scope, hname, hnames, hearlier]

end Declaration

/-- Declarations of which the same is written are forwarded to such declarations. -/
theorem written_forwardAll_congr {ds es : List Declaration}
    (h : ds.map Declaration.written = es.map Declaration.written) :
    (forwardAll ds).map Declaration.written = (forwardAll es).map Declaration.written := by
  apply List.ext_getElem?
  intro k
  have htake : (ds.take k).map Declaration.written = (es.take k).map Declaration.written := by
    rw [List.map_take, h, List.map_take]
  have hk : (ds[k]?).map Declaration.written = (es[k]?).map Declaration.written := by
    rw [← List.getElem?_map, h, List.getElem?_map]
  rw [List.getElem?_map, List.getElem?_map, getElem?_forwardAll, getElem?_forwardAll]
  cases hd : ds[k]? <;> cases he : es[k]? <;> simp only [hd, he, Option.map_some, Option.map_none,
    Option.some.injEq, reduceCtorEq] at hk ⊢
  rw [Declaration.scope_congr htake hk, Declaration.written_forward_congr hk]

/-- Forwarding declarations that were forwarded leaves what is written of them. -/
theorem written_forwardAll_of_written {ds es : List Declaration}
    (h : es.map Declaration.written = (forwardAll ds).map Declaration.written) :
    (forwardAll es).map Declaration.written = (forwardAll ds).map Declaration.written := by
  rw [written_forwardAll_congr h, forwardAll_eq_self_iff.2 fun _ _ => isForwarded_of_forwardAll]

/-- Declarations that were forwarded once are rendered like those that they come from. -/
theorem Link.Plan.render_of_written (p : Plan) {ds es : List Declaration}
    (h : es.map Declaration.written = (forwardAll ds).map Declaration.written) :
    p.render es = p.render ds := by
  have hrender : (forwardAll es).map Declaration.render = (forwardAll ds).map Declaration.render :=
    map_eq_map_of_factorsThrough (written_forwardAll_of_written h)
      fun _ _ => Declaration.render_congr
  unfold render renderLink
  rw [hrender]

/-! ## Line breaks in defaults -/

/-- Whether a parameter has a default with a carriage return and a line feed in it. -/
def Parameter.hasCrlf (q : Parameter) : Bool := q.default.any fun e => lineSeparator e.text = crlf

/-- Whether some parameter of a declaration has a default with a carriage return and a line feed in
it. -/
def Declaration.hasCrlf (d : Declaration) : Bool := d.parameters.any Parameter.hasCrlf

theorem Declaration.hasCrlf_iff {d : Declaration} :
    d.hasCrlf = true ↔ ∃ x ∈ d.defaults, .returnFeed ∈ lineEnds x.text := by
  unfold hasCrlf Parameter.hasCrlf defaults
  simp only [List.any_eq_true, Option.any_eq_true, List.mem_filterMap, decide_eq_true_eq,
    lineSeparator_eq_crlf_iff, returnFeed_mem_lineEnds]
  constructor
  · rintro ⟨q, hq, x, hx, h⟩
    exact ⟨x, ⟨q, hq, hx⟩, h⟩
  · rintro ⟨x, ⟨q, hq, hx⟩, h⟩
    exact ⟨q, hq, x, hx, h⟩

theorem named_of_allRereadable {m separator trailer : List Char} {ds : List Declaration}
    (h : AllRereadable m separator trailer ds) : ∀ d ∈ ds, d.Named := by
  induction ds with
  | nil => exact List.forall_mem_nil _
  | cons d ds ih => exact List.forall_mem_cons.2 ⟨⟨h.1.isName, h.1.names, h.1.body⟩, ih h.2⟩

/-! ## Line breaks in link files -/

namespace Link.Plan

variable {file : Text} {p : Plan} {m : List Char} {ds : List Declaration}

/-- The line separator that is found in the written text is the one that was written, unless a
default brings along the only line breaks of the other kind. -/
theorem Parsed.lineSeparator_render_eq_iff (hparsed : p.Parsed file)
    (h : AllRereadable m p.separator p.trailer (forwardAll ds)) :
    lineSeparator (p.render ds) = p.separator ↔
      p.separator = crlf ∨ (forwardAll ds).any Declaration.hasCrlf = false := by
  have hnamed := named_of_allRereadable h
  by_cases hsource : crlf <:+: p.chunk.source
  · have hseparator : p.separator = crlf := (lineSeparator_eq_crlf_iff _).2 hsource
    have hrender : .returnFeed ∈ lineEnds (p.render ds) := by
      have hcrlf : .returnFeed ∈ lineEnds p.separator := hseparator ▸ List.mem_singleton_self _
      rw [hparsed.lineEnds_render hnamed]
      simp only [List.mem_append, hcrlf, true_or, or_true]
    rw [hseparator, lineSeparator_eq_crlf_iff]
    exact iff_of_true (returnFeed_mem_lineEnds.1 hrender) (.inl rfl)
  · have hseparator : p.separator = ['\n'] := lineSeparator_of_no_crlf hsource
    have hrender : crlf <:+: p.render ds ↔ (forwardAll ds).any Declaration.hasCrlf = true := by
      rw [← returnFeed_mem_lineEnds, hparsed.mem_lineEnds_render_iff hnamed
        (mt returnFeed_mem_lineEnds.1 hsource) (by rw [hseparator]; decide), List.any_eq_true]
      simp only [Declaration.hasCrlf_iff]
    rw [hseparator]
    by_cases hbreak : crlf <:+: p.render ds
    · rw [(lineSeparator_eq_crlf_iff _).2 hbreak, hrender.1 hbreak]
      exact iff_of_false (by decide) (by decide)
    · rw [lineSeparator_of_no_crlf hbreak]
      exact iff_of_true rfl (.inr (Bool.eq_false_iff.2 (hrender.not.1 hbreak)))

variable {chunk : Chunk} {call : Expression} {declarations : List Declaration}

/-- From the text that was written, the same text is rendered exactly if the same line separator is
found in it. -/
theorem Decodes.render_eq_iff (h : p.Decodes declarations chunk call) (htrailer : p.trailer ≠ [])
    (module : Path) : (Plan.mk chunk call module).render ds = p.render ds ↔
      lineSeparator chunk.source = p.separator := by
  have htrailer' : (Plan.mk chunk call module).trailer = p.trailer := by
    rw [trailer, if_neg]
    · exact h.trailingTrivia
    · rw [h.trailingTrivia]
      exact htrailer
  have hcall : (Plan.mk chunk call module).callText = p.callText := h.callText
  rw [render_eq, render_eq, h.leadingTrivia, hcall, htrailer']
  constructor
  · intro heq
    have hrest := List.append_cancel_left (List.append_cancel_left (List.append_cancel_left
      (List.append_cancel_left (List.append_cancel_left (List.append_cancel_left
        (List.append_cancel_left (List.append_cancel_left heq)))))))
    have hfirst := p.separator_mem
    have hsecond := (Plan.mk chunk call module).separator_mem
    simp only [List.mem_cons, List.not_mem_nil, or_false] at hfirst hsecond
    -- The separators start with different characters if they differ.
    rcases hfirst with hfirst | hfirst <;> rcases hsecond with hsecond | hsecond <;>
      rw [hfirst, hsecond] at hrest <;> first
        | exact hsecond.trans hfirst.symm
        | cases hrest
  · intro hseparator
    rw [show (Plan.mk chunk call module).separator = p.separator from hseparator]

end Link.Plan

/-! ## Texts that are written again -/

/-- What a plan writes is written again: it is decoded, and the same line separator is found in it. -/
structure Link.Plan.Stable (p : Plan) (module : Luau.Chunk) : Prop where
  keepsOpen : p.KeepsOpen module
  isApplicable : module.exports.all Declaration.isApplicable = true
  lineBreaks : p.separator = crlf ∨ (forwardAll module.exports).any Declaration.hasCrlf = false

/-- Whether a parameter can be applied, and its default has no carriage return in front of a line feed
and opens no long bracket. -/
def Parameter.isPlain (q : Parameter) : Bool :=
  q.isApplicable && !q.hasCrlf && q.default.all fun e => !opensBracket e.text

/-- Whether all parameters of a declaration are plain. -/
def Declaration.isPlain (d : Declaration) : Bool := d.parameters.all Parameter.isPlain

theorem Parameter.isPlain_congr {p q : Parameter} (h : p.written = q.written) :
    p.isPlain = q.isPlain := by
  obtain ⟨hname, hvariadic, hdefault⟩ := written_eq_iff.1 h
  unfold isPlain isApplicable hasCrlf
  rw [hname, hvariadic]
  cases hp : p.default <;> cases hq : q.default <;> simp [hp, hq] at hdefault
  · rfl
  · simp only [Option.any_some, Option.all_some, hdefault.2]

theorem Declaration.isPlain_congr {d e : Declaration} (h : d.written = e.written) :
    d.isPlain = e.isPlain :=
  all_eq_all_of_factorsThrough (written_eq_iff.1 h).2.1 fun _ _ => Parameter.isPlain_congr

namespace Link.Plan

variable {p : Plan} {module chunk : Chunk} {call : Expression} {ds : List Declaration}

/-- Plain declarations are written again, if the text around the require call opens no bracket. -/
theorem stable_of_isPlain (hheader : opensBracket p.chunk.leadingTrivia = false)
    (hcall : opensBracket p.callText = false)
    (h : (forwardAll module.exports).all Declaration.isPlain = true) : p.Stable module := by
  have hplain : ∀ d ∈ forwardAll module.exports, ∀ q ∈ d.parameters, (q.isApplicable = true ∧
      q.hasCrlf = false) ∧ ∀ e, q.default = some e → opensBracket e.text = false := by
    intro d hd q hq
    have hq' := List.all_eq_true.1 (List.all_eq_true.1 h d hd) q hq
    rw [Parameter.isPlain, Bool.and_eq_true, Bool.and_eq_true, Bool.not_eq_true'] at hq'
    refine ⟨hq'.1, fun e he => ?_⟩
    have hdefault := hq'.2
    rwa [he, Option.all_some, Bool.not_eq_true'] at hdefault
  constructor
  · exact keepsOpen_of_opensBracket hheader hcall fun d hd q hq => (hplain d hd q hq).2
  · rw [← all_isApplicable_forwardAll]
    exact List.all_eq_true.2 fun d hd => List.all_eq_true.2 fun q hq => (hplain d hd q hq).1.1
  · refine .inr (List.any_eq_false.2 fun d hd hcrlf => ?_)
    obtain ⟨q, hq, hcrlf⟩ := List.any_eq_true.1 hcrlf
    rw [(hplain d hd q hq).1.2] at hcrlf
    cases hcrlf

/-- A link file that was written has plain declarations if its module has. -/
theorem Decodes.all_isPlain (h : p.Decodes ds chunk call)
    (hds : (forwardAll ds).all Declaration.isPlain = true) :
    (forwardAll chunk.exports).all Declaration.isPlain = true :=
  (all_eq_all_of_factorsThrough (written_forwardAll_of_written h.exports)
    fun _ _ => Declaration.isPlain_congr).trans hds

/-- A link file that is read on from its require call, and not from a local, is changed. -/
theorem outcome_of_fresh {rest : List Char} (h : p.chunk.source = p.chunk.leadingTrivia ++ 'r' :: rest)
    (hds : ds ≠ []) : p.outcome ds = .changed (p.render ds) := by
  refine outcome_eq_changed_iff.2 ⟨hds, rfl, ?_⟩
  rw [render_eq, h]
  exact fun heq => absurd (List.cons.inj (List.append_cancel_left heq)).1 (by decide)

end Link.Plan

/-! ## Updating again -/

namespace Link

open World

section Second

variable {fs fs' : FileSystem} {folder folder' : DiskLocation} {tree : Node} {link : Path}
  {source : List Char} {p : Plan} {module chunk : Chunk} {call : Expression}

/-- In a text that was written the same module is found again, with the same types. -/
theorem Finds.again (h : Finds fs folder tree link source p module)
    (hmodule : fs'.read folder' p.module = fs.read folder p.module) {n : List Char}
    (hparse : parse link.text n = .ok chunk) (hdecodes : p.Decodes module.exports chunk call) :
    Finds fs' folder' tree link n ⟨chunk, call, p.module⟩ module :=
  ⟨plan_again h.plan hparse hdecodes, h.module.congr hmodule⟩

/-- A link file that was given another text is unchanged by a second update exactly if every
parameter can be applied, and no default brings along the only line breaks of another kind. -/
theorem Finds.unchanged_iff (h : Finds fs folder tree link source p module)
    (hexports : module.exports ≠ []) (hopen : p.KeepsOpen module)
    (hmodule : fs'.read folder' p.module = fs.read folder p.module) :
    Link.updated fs' folder' tree link (p.render module.exports) = .ok .unchanged ↔
      module.exports.all Declaration.isApplicable = true ∧
        (p.separator = crlf ∨ (forwardAll module.exports).any Declaration.hasCrlf = false) := by
  have hparse' := h.module.parse
  obtain ⟨hparsed, -⟩ := plan_parsed h.plan
  have hdecodes := hparsed.exists_decodes_iff (Path.text_ne_nil link) hparse' hexports hopen
  by_cases happlicable : module.exports.all Declaration.isApplicable = true
  · obtain ⟨chunk, call, hchunk, hdecode⟩ := hdecodes.2 happlicable
    rw [(h.again hmodule hchunk hdecode).updated, Except.ok.injEq, Plan.outcome_eq_unchanged_iff,
      or_iff_right hexports, source_of_parse hchunk,
      hdecode.render_eq_iff hparsed.gap_trailer.2, source_of_parse hchunk,
      hparsed.lineSeparator_render_eq_iff (Plan.allRereadable hparse' hopen)]
    exact (and_iff_right happlicable).symm
  · refine iff_of_false (fun hunchanged => ?_) fun hand => happlicable hand.1
    obtain ⟨p', module', hfinds, -⟩ := exists_finds hunchanged rfl
    obtain ⟨hparsed', hsource⟩ := plan_parsed hfinds.plan
    refine hparsed.parse_ne_ok hparse' hexports hopen (by simpa using happlicable) link.text
      p'.chunk ?_
    rw [← hsource, hparsed'.parse]

/-- A link file that was given another text, and that is its own module, is unchanged by a second
update if every parameter can be applied, and no default brings along the only line breaks of another
kind: it exports what it forwarded, and forwarding that changes nothing. -/
theorem Finds.unchanged_of_self (h : Finds fs folder tree link source p module)
    (hexports : module.exports ≠ []) (hopen : p.KeepsOpen module)
    (happlicable : module.exports.all Declaration.isApplicable = true)
    (hbreaks : p.separator = crlf ∨ (forwardAll module.exports).any Declaration.hasCrlf = false)
    (hmodule : fs'.read folder' p.module = .ok (Utf8.encode (p.render module.exports))) :
    Link.updated fs' folder' tree link (p.render module.exports) = .ok .unchanged := by
  have hparse' := h.module.parse
  obtain ⟨hparsed, -⟩ := plan_parsed h.plan
  obtain ⟨chunk, call, hchunk, hdecode⟩ :=
    hparsed.exists_decodes (Path.text_ne_nil link) hparse' hexports hopen happlicable
  have hfinds : Finds fs' folder' tree link (p.render module.exports) ⟨chunk, call, p.module⟩
      { chunk with file := p.module.text } :=
    ⟨plan_again h.plan hchunk hdecode, _, _, hmodule, Utf8.decode_encode _,
      parse_named hchunk (Path.text_ne_nil _)⟩
  have hseparator : lineSeparator chunk.source = p.separator := by
    rw [source_of_parse hchunk]
    exact (hparsed.lineSeparator_render_eq_iff (Plan.allRereadable hparse' hopen)).2 hbreaks
  rw [hfinds.updated, Except.ok.injEq, Plan.outcome_eq_unchanged_iff]
  refine .inr ((Plan.render_of_written _ hdecode.exports).trans ?_)
  rw [(hdecode.render_eq_iff hparsed.gap_trailer.2 _).2 hseparator, source_of_parse hchunk]

end Second

/-- A link file that was given another text is unchanged by a second update exactly if every
parameter can be applied, and no default brings along the only line breaks of another kind; unless a
long bracket that a copied text leaves open is closed by another one. -/
theorem second_update_unchanged {tree : Node} {link : Path} {source n : List Char} {w : World}
    (h : (exec (update tree link source : ExceptT Crash (StateM World) Outcome) w).1 =
      .ok (.changed n)) :
    ∃ p module, Finds w.files w.folder tree link source p module ∧ (p.KeepsOpen module →
      ∀ v : World, v.files.read v.folder p.module = w.files.read w.folder p.module →
        ((exec (update tree link n : ExceptT Crash (StateM World) Outcome) v).1 = .ok .unchanged ↔
          module.exports.all Declaration.isApplicable = true ∧
            (lineSeparator source = crlf ∨
              (forwardAll module.exports).any Declaration.hasCrlf = false))) := by
  obtain ⟨w', hexec, -⟩ := exec_update tree link source w
  rw [hexec] at h
  obtain ⟨p, module, hfinds, houtcome⟩ := exists_finds h rfl
  obtain ⟨hexports, rfl, -⟩ := Plan.outcome_eq_changed_iff.1 houtcome.symm
  refine ⟨p, module, hfinds, fun hopen v hmodule => ?_⟩
  obtain ⟨v', hexec', -⟩ := exec_update tree link (p.render module.exports) v
  obtain ⟨-, rfl⟩ := plan_parsed hfinds.plan
  rw [hexec']
  exact hfinds.unchanged_iff hexports hopen hmodule

open Sample in
/-- A link file of a generic type with a default. -/
theorem second_update_unchanged_default :
    (exec (update tree link newText : ExceptT Crash (StateM World) Outcome) world).1 =
      .ok .unchanged := by
  obtain ⟨p, m, hfinds, h⟩ := second_update_unchanged exec_update_link
  obtain ⟨rfl, rfl⟩ := finds.unique hfinds
  exact (h keepsOpen world rfl).2 ⟨rfl, .inr (by decide)⟩

end Link

end TypedLinks
