import TypedLinks.Proofs.Link.Decoding
import TypedLinks.Proofs.Syntax.Endings
import TypedLinks.Proofs.Syntax.Surroundings

/-!
# Line ends of a link file

The lines that are written into a link file end as those that it has do. The text around them is its
own; but a default is copied from the module with the line ends that stand in it. So a link file
keeps its line ends exactly if the defaults that are forwarded have none of another kind.
-/

namespace TypedLinks

open Luau

/-! ## Line ends of a text -/

/-- A line ends with a line feed by itself, or with one behind a carriage return. -/
inductive LineEnd where
  | feed
  | returnFeed
  deriving DecidableEq

/-- The line ends of a text, which stands behind a carriage return or does not. -/
def lineEndsBehind : Bool → List Char → List LineEnd
  | _, [] => []
  | behind, c :: cs =>
    if c = '\n' then (if behind then .returnFeed else .feed) :: lineEndsBehind false cs
    else lineEndsBehind (c = '\r') cs

/-- The line ends of a text. -/
def lineEnds (cs : List Char) : List LineEnd := lineEndsBehind false cs

/-- A carriage return and a line feed. -/
def crlf : List Char := ['\r', '\n']

/-- Whether every line feed of a text stands behind a carriage return. -/
def OnlyCrlf (cs : List Char) : Prop := ∀ x y, cs = x ++ '\n' :: y → x.getLast? = some '\r'

section Text

variable {x y cs : List Char} {behind : Bool} {e : LineEnd}

/-- Whether what follows a text stands behind a carriage return. -/
def endsInReturn (behind : Bool) (x : List Char) : Bool :=
  x.getLast?.elim behind fun c => c = '\r'

theorem endsInReturn_cons (behind : Bool) (c : Char) (x : List Char) :
    endsInReturn behind (c :: x) = endsInReturn (c = '\r') x := by
  unfold endsInReturn
  rw [List.getLast?_cons]
  cases x.getLast? <;> rfl

theorem endsInReturn_false : endsInReturn false x = true ↔ x.getLast? = some '\r' := by
  unfold endsInReturn
  cases x.getLast? <;> simp

theorem lineEndsBehind_append (behind : Bool) (x y : List Char) :
    lineEndsBehind behind (x ++ y) =
      lineEndsBehind behind x ++ lineEndsBehind (endsInReturn behind x) y := by
  induction x generalizing behind with
  | nil => rfl
  | cons c x ih =>
    rw [List.cons_append, lineEndsBehind, lineEndsBehind, endsInReturn_cons]
    by_cases hc : c = '\n'
    · subst hc
      rw [if_pos rfl, if_pos rfl, ih, List.cons_append]
      rfl
    · rw [if_neg hc, if_neg hc, ih]

/-- What stands in front of a text matters only if the text starts with a line feed. -/
theorem lineEndsBehind_eq (h : y.head? ≠ some '\n') : lineEndsBehind behind y = lineEnds y := by
  cases y with
  | nil => rfl
  | cons c y =>
    have hc : c ≠ '\n' := fun hc => h (congrArg some hc)
    rw [lineEnds, lineEndsBehind, lineEndsBehind, if_neg hc, if_neg hc]

/-- A line end does not stand across two texts, unless it is cut in the middle. -/
theorem lineEnds_append (h : x.getLast? = some '\r' → y.head? ≠ some '\n') :
    lineEnds (x ++ y) = lineEnds x ++ lineEnds y := by
  rw [lineEnds, lineEndsBehind_append]
  cases hx : endsInReturn false x with
  | false => rfl
  | true => rw [lineEndsBehind_eq (h (endsInReturn_false.1 hx))]; rfl

theorem lineEnds_append_of_head (h : y.head? ≠ some '\n') :
    lineEnds (x ++ y) = lineEnds x ++ lineEnds y := lineEnds_append fun _ => h

theorem lineEnds_append_of_last (h : x.getLast? ≠ some '\r') :
    lineEnds (x ++ y) = lineEnds x ++ lineEnds y := lineEnds_append fun hx => absurd hx h

theorem lineEnds_eq_nil (h : '\n' ∉ x) : lineEnds x = [] := by
  have hbehind (behind : Bool) : lineEndsBehind behind x = [] := by
    induction x generalizing behind with
    | nil => rfl
    | cons c x ih =>
      rw [List.mem_cons, not_or] at h
      rw [lineEndsBehind, if_neg (Ne.symm h.1), ih h.2]
  exact hbehind false

/-- A text without line feeds and carriage returns. -/
def Plain (x : List Char) : Prop := '\n' ∉ x ∧ '\r' ∉ x

instance (x : List Char) : Decidable (Plain x) := inferInstanceAs (Decidable (_ ∧ _))

theorem Plain.append (h : Plain x) (h' : Plain y) : Plain (x ++ y) := by
  unfold Plain
  rw [List.mem_append, List.mem_append, not_or, not_or]
  exact ⟨⟨h.1, h'.1⟩, h.2, h'.2⟩

theorem Plain.lineEnds_append (h : Plain x) (y : List Char) :
    lineEnds (x ++ y) = lineEnds y := by
  rw [lineEnds_append_of_last fun hlast => h.2 (List.mem_of_getLast? hlast), lineEnds_eq_nil h.1,
    List.nil_append]

theorem lineEnds_subset_of_start (h : x <+: y) : lineEnds x ⊆ lineEnds y := by
  obtain ⟨z, rfl⟩ := h
  rw [lineEnds, lineEnds, lineEndsBehind_append]
  exact List.subset_append_left _ _

theorem mem_lineEndsBehind_returnFeed : .returnFeed ∈ lineEndsBehind behind cs ↔
    (behind = true ∧ cs.head? = some '\n') ∨ crlf <:+: cs := by
  induction cs generalizing behind with
  | nil => simp [lineEndsBehind, crlf]
  | cons c cs ih =>
    have hstart : crlf <+: c :: cs ↔ c = '\r' ∧ cs.head? = some '\n' := by
      rw [crlf, List.cons_prefix_cons, eq_comm, List.singleton_prefix_iff_head?_eq_some]
    rw [lineEndsBehind, List.infix_cons_iff, hstart]
    by_cases hc : c = '\n'
    · subst hc
      rw [if_pos rfl, List.mem_cons, ih]
      cases behind <;> simp
    · rw [if_neg hc, ih]
      simp [hc]

theorem returnFeed_mem_lineEnds : .returnFeed ∈ lineEnds cs ↔ crlf <:+: cs := by
  rw [lineEnds, mem_lineEndsBehind_returnFeed]
  simp

theorem feed_notMem_lineEndsBehind : .feed ∉ lineEndsBehind behind cs ↔
    ∀ x y, cs = x ++ '\n' :: y → endsInReturn behind x = true := by
  induction cs generalizing behind with
  | nil => simp [lineEndsBehind]
  | cons c cs ih =>
    have hsplit : (∀ x y, c :: cs = x ++ '\n' :: y → endsInReturn behind x = true) ↔
        (c = '\n' → behind = true) ∧
          ∀ x y, cs = x ++ '\n' :: y → endsInReturn (c = '\r') x = true := by
      constructor
      · intro h
        refine ⟨fun hc => h [] cs (congrArg (· :: cs) hc), fun x y hcs => ?_⟩
        rw [← endsInReturn_cons behind]
        exact h (c :: x) y (congrArg (c :: ·) hcs)
      · rintro ⟨hfirst, hothers⟩ x y hcs
        cases x with
        | nil => exact hfirst (List.cons.inj hcs).1
        | cons d x =>
          obtain ⟨rfl, htail⟩ := List.cons.inj hcs
          rw [endsInReturn_cons]
          exact hothers x y htail
    rw [hsplit, ← ih, lineEndsBehind]
    by_cases hc : c = '\n'
    · subst hc
      cases behind <;> simp
    · simp [hc]

theorem feed_notMem_lineEnds : .feed ∉ lineEnds cs ↔ OnlyCrlf cs := by
  rw [lineEnds, feed_notMem_lineEndsBehind, OnlyCrlf]
  simp only [endsInReturn_false]

end Text

/-! ## Line separators -/

theorem lineSeparator_eq_crlf_iff (cs : List Char) : lineSeparator cs = crlf ↔ crlf <:+: cs := by
  fun_induction lineSeparator cs with
  | case1 cs => exact ⟨fun _ => ⟨[], cs, rfl⟩, fun _ => rfl⟩
  | case2 c cs h ih =>
    rw [ih, List.infix_cons_iff]
    refine (or_iff_right ?_).symm
    rintro ⟨rest, hrest⟩
    cases hrest
    exact h rest rfl rfl
  | case3 => simp [crlf]

theorem lineSeparator_of_no_crlf {cs : List Char} (h : ¬crlf <:+: cs) :
    lineSeparator cs = ['\n'] := by
  have hmem := lineSeparator_mem cs
  simp only [List.mem_cons, List.not_mem_nil, or_false] at hmem
  exact hmem.resolve_right fun heq => h ((lineSeparator_eq_crlf_iff cs).1 heq)

/-! ## Line ends of declarations -/

/-- The defaults of a declaration. -/
def Declaration.defaults (d : Declaration) : List DefaultType :=
  d.parameters.filterMap Parameter.default

/-- A declaration whose names are names and whose body applies the type of the module. -/
structure Declaration.Named (d : Declaration) : Prop where
  name : IsName d.name
  parameters : ∀ q ∈ d.parameters, IsName q.name
  body : d.body = moduleBinding ++ (['.'] ++
    (d.name ++ Declaration.angled (d.parameters.map Parameter.reference)))

section Rendered

variable {q : Parameter} {d : Declaration} {ds : List Declaration} {ts : List (List Char)}

theorem Luau.IsName.plain {w : List Char} (h : IsName w) : Plain w :=
  ⟨fun hmem => absurd (h.parts '\n' hmem) (by decide),
    fun hmem => absurd (h.parts '\r' hmem) (by decide)⟩

theorem Parameter.plain_reference (h : IsName q.name) : Plain q.reference := by
  unfold reference
  split
  · exact h.plain.append (by decide)
  · exact h.plain

/-- The line ends of a parameter are those of its default. -/
theorem Parameter.lineEnds_render (h : IsName q.name) :
    lineEnds q.render = q.default.toList.flatMap fun x => lineEnds x.text := by
  unfold render
  cases q.default with
  | none => exact lineEnds_eq_nil (plain_reference h).1
  | some x =>
    dsimp only
    rw [List.append_assoc, (plain_reference h).lineEnds_append,
      Plain.lineEnds_append (by decide), Option.toList_some, List.flatMap_singleton]

theorem plain_separated (h : ∀ t ∈ ts, Plain t) : Plain (separated ", ".toList ts) := by
  induction ts with
  | nil => decide
  | cons t ts ih =>
    rw [List.forall_mem_cons] at h
    by_cases hts : ts = []
    · rw [hts, separated_singleton]
      exact h.1
    · rw [separated_cons _ _ hts]
      exact h.1.append ((show Plain ", ".toList by decide).append (ih h.2))

theorem plain_angled (h : ∀ t ∈ ts, Plain t) : Plain (Declaration.angled ts) := by
  unfold Declaration.angled
  split
  · decide
  · exact ((show Plain "<".toList by decide).append (plain_separated h)).append (by decide)

theorem lineEnds_separated (ts : List (List Char)) :
    lineEnds (separated ", ".toList ts) = ts.flatMap lineEnds := by
  induction ts with
  | nil => rfl
  | cons t ts ih =>
    by_cases hts : ts = []
    · rw [hts, separated_singleton, List.flatMap_singleton]
    · rw [separated_cons _ _ hts, lineEnds_append_of_head (by rintro ⟨⟩),
        Plain.lineEnds_append (by decide), ih, List.flatMap_cons]

theorem lineEnds_angled (ts : List (List Char)) :
    lineEnds (Declaration.angled ts) = ts.flatMap lineEnds := by
  unfold Declaration.angled
  split
  · rename_i hts
    rw [List.isEmpty_iff.1 hts]
    rfl
  · rw [lineEnds_append_of_head (by rintro ⟨⟩), Plain.lineEnds_append (by decide),
      lineEnds_separated, lineEnds_eq_nil (show '\n' ∉ ">".toList by decide), List.append_nil]

namespace Declaration.Named

theorem plain_body (h : d.Named) : Plain d.body := by
  rw [h.body]
  exact (show Plain moduleBinding by decide).append ((show Plain ['.'] by decide).append
    (h.name.plain.append (plain_angled (List.forall_mem_map.2 fun q hq =>
      Parameter.plain_reference (h.parameters q hq)))))

/-- The line ends of a declaration that is rendered are those of its defaults. -/
theorem lineEnds_render (h : d.Named) (after : List Char) :
    lineEnds (d.render ++ after) =
      (d.defaults.flatMap fun x => lineEnds x.text) ++ lineEnds after := by
  have hparameters : (d.parameters.map Parameter.render).flatMap lineEnds =
      d.defaults.flatMap fun x => lineEnds x.text := by
    rw [Declaration.defaults, List.flatMap_map, List.filterMap_eq_flatMap_toList, List.flatMap_assoc]
    exact List.flatMap_congr fun q hq => Parameter.lineEnds_render (h.parameters q hq)
  rw [render_eq, Plain.lineEnds_append (by decide), Plain.lineEnds_append (by decide),
    Plain.lineEnds_append (by decide), Plain.lineEnds_append (by decide),
    h.name.plain.lineEnds_append, lineEnds_append_of_head (by rintro ⟨⟩),
    Plain.lineEnds_append (by decide), Plain.lineEnds_append (by decide),
    Plain.lineEnds_append (by decide), h.plain_body.lineEnds_append, lineEnds_angled, hparameters]

end Declaration.Named

/-- The line ends of what is written behind the require call: those of the defaults, a separator
behind each declaration, and those of the trailer. -/
theorem lineEnds_renderRest {separator trailer : List Char}
    (hseparator : separator ∈ [['\n'], ['\r', '\n']]) (h : ∀ d ∈ ds, d.Named) :
    lineEnds (renderRest separator trailer ds) =
      (ds.flatMap fun d => (d.defaults.flatMap fun x => lineEnds x.text) ++ lineEnds separator) ++
        lineEnds trailer := by
  have hlast : separator.getLast? ≠ some '\r' := by
    have hseparators : ∀ s ∈ [['\n'], ['\r', '\n']], s.getLast? ≠ some '\r' := by decide
    exact hseparators _ hseparator
  induction ds with
  | nil =>
    rw [renderRest, Plain.lineEnds_append (by decide), Plain.lineEnds_append (by decide),
      Plain.lineEnds_append (by decide)]
    rfl
  | cons d ds ih =>
    rw [List.forall_mem_cons] at h
    rw [renderRest, h.1.lineEnds_render, lineEnds_append_of_last hlast, ih h.2, List.flatMap_cons]
    simp only [List.append_assoc]

/-! ## Line ends of link files -/

theorem named_forwardAfter {m : List Char} {earlier : List Declaration}
    (h : ∀ d ∈ ds, ReadsDeclaration m d) : ∀ d ∈ forwardAfter earlier ds, d.Named := by
  induction ds generalizing earlier with
  | nil => exact List.forall_mem_nil _
  | cons d ds ih =>
    rw [List.forall_mem_cons] at h
    refine List.forall_mem_cons.2 ⟨⟨h.1.isName, ?_, d.body_forward _⟩, ih h.2⟩
    rw [d.parameters_forward, List.forall_mem_map]
    exact fun q hq => (q.name_forward _).symm ▸ Link.isName_of_readsParameters h.1.parameters q hq

/-- The types of a module are forwarded with names that are names. -/
theorem named_forwardAll {file : Text} {source : List Char} {module : Chunk}
    (h : parse file source = .ok module) : ∀ d ∈ forwardAll module.exports, d.Named := by
  obtain ⟨ts, own, hblock, -, rfl⟩ := parse_eq_ok_iff.1 h
  exact named_forwardAfter hblock.declarations

end Rendered

section Source

variable {source : List Char} {c : Chunk} {s : Span} {file : Text}

theorem Luau.Chunk.leadingTrivia_prefix (c : Chunk) : c.leadingTrivia <+: c.source := by
  unfold leadingTrivia
  split
  · exact List.take_prefix _ _
  · exact List.prefix_refl _

theorem Luau.Span.text_infix (s : Span) (source : List Char) : s.text source <:+: source :=
  (List.take_prefix _ _).isInfix.trans (List.drop_suffix _ _).isInfix

/-- A piece of a text that does not start with a line feed has line ends of the text. -/
theorem lineEnds_subset_of_infix {x y : List Char} (h : x <:+: y) (hhead : x.head? ≠ some '\n') :
    lineEnds x ⊆ lineEnds y := by
  obtain ⟨before, after, rfl⟩ := h
  refine List.Subset.trans ?_ (lineEnds_subset_of_start (List.prefix_append (before ++ x) after))
  rw [lineEnds_append_of_head hhead]
  exact List.subset_append_right _ _

theorem lineEnds_drop_subset {cs : List Char} {n : Nat} (h : (cs.take n).getLast? ≠ some '\r') :
    lineEnds (cs.drop n) ⊆ lineEnds cs := by
  have happend := lineEnds_append_of_last (y := cs.drop n) h
  rw [List.take_append_drop] at happend
  rw [happend]
  exact List.subset_append_right _ _

/-- The trailing trivia of a chunk has line ends of the chunk: no statement ends with a carriage
return that could be one half of a line end. -/
theorem Luau.Chunk.lineEnds_trailingTrivia_subset (h : parse file c.source = .ok c) :
    lineEnds c.trailingTrivia ⊆ lineEnds c.source := by
  unfold trailingTrivia
  split
  · rename_i s hs
    obtain ⟨n, hn, rfl⟩ : ∃ n ∈ c.block.nodes, n.span = s := by
      rw [← List.mem_map, Block.map_span_nodes]
      exact List.mem_of_getLast? hs
    have hnode : c.HasNode n := .top hn
    have hplaced := hnode.isPlaced h
    have hlast := hnode.text_last h
    refine lineEnds_drop_subset ?_
    rw [hplaced.take_stop, List.getLast?_append_of_ne_nil _ hplaced.text_ne_nil]
    exact hlast
  · exact List.nil_subset _

end Source

namespace Link.Plan

variable {file : Text} {p : Plan} {ds : List Declaration} {e : LineEnd}

theorem Parsed.lineEnds_callText_subset (h : p.Parsed file) :
    lineEnds p.callText ⊆ lineEnds p.chunk.source := by
  obtain ⟨-, -, -, -, -, -, b, v, hcall⟩ := h.exists_block
  refine lineEnds_subset_of_infix (p.call.span.text_infix _) ?_
  rw [show p.callText = "require".toList ++ b from hcall.text]
  rintro ⟨⟩

/-- The line ends of the text that a plan writes, in their order. -/
theorem Parsed.lineEnds_render (hparsed : p.Parsed file) (h : ∀ d ∈ forwardAll ds, d.Named) :
    lineEnds (p.render ds) = lineEnds p.chunk.leadingTrivia ++ (lineEnds p.callText ++
      (lineEnds p.separator ++ (((forwardAll ds).flatMap fun d =>
        (d.defaults.flatMap fun x => lineEnds x.text) ++ lineEnds p.separator) ++
          lineEnds p.trailer))) := by
  have hseparator : p.separator.getLast? ≠ some '\r' := by
    have hseparators : ∀ s ∈ [['\n'], ['\r', '\n']], s.getLast? ≠ some '\r' := by decide
    exact hseparators _ p.separator_mem
  rw [render_eq, lineEnds_append_of_head (by rintro ⟨⟩), Plain.lineEnds_append (by decide),
    Plain.lineEnds_append (by decide), Plain.lineEnds_append (by decide),
    Plain.lineEnds_append (by decide), Plain.lineEnds_append (by decide),
    Plain.lineEnds_append (by decide),
    lineEnds_append_of_last (by rw [hparsed.callText_last]; rintro ⟨⟩),
    lineEnds_append_of_last hseparator, lineEnds_renderRest p.separator_mem h]

/-- A line end that neither the link file has nor the separator is, stands in the new text exactly if
it stands in a default. -/
theorem Parsed.mem_lineEnds_render_iff (hparsed : p.Parsed file)
    (h : ∀ d ∈ forwardAll ds, d.Named) (hsource : e ∉ lineEnds p.chunk.source)
    (hseparator : e ∉ lineEnds p.separator) :
    e ∈ lineEnds (p.render ds) ↔ ∃ d ∈ forwardAll ds, ∃ x ∈ d.defaults, e ∈ lineEnds x.text := by
  have hheader : e ∉ lineEnds p.chunk.leadingTrivia := fun he =>
    hsource (lineEnds_subset_of_start p.chunk.leadingTrivia_prefix he)
  have hcall : e ∉ lineEnds p.callText := fun he => hsource (hparsed.lineEnds_callText_subset he)
  have htrailer : e ∉ lineEnds p.trailer := by
    unfold trailer
    split
    · exact hseparator
    · exact fun he => hsource (Chunk.lineEnds_trailingTrivia_subset hparsed.parse he)
  rw [hparsed.lineEnds_render h]
  simp [hheader, hcall, htrailer, hseparator]

end Link.Plan

namespace Link

open World

/-- A link file that was given another text has kept its line ends exactly if the defaults that are
forwarded have no line ends of another kind: where every line feed of the link file stood behind a
carriage return, every one still does, exactly if every one of a default does; and where none did,
none does, exactly if none of a default does. -/
theorem line_ends_kept {tree : Node} {link : Path} {source n : List Char} {w : World}
    (h : (exec (update tree link source : ExceptT Crash (StateM World) Outcome) w).1 =
      .ok (.changed n)) :
    ∃ p module, Finds w.files w.folder tree link source p module ∧
      ('\n' ∈ source → OnlyCrlf source →
        (OnlyCrlf n ↔ ∀ d ∈ forwardAll module.exports, ∀ x ∈ d.defaults, OnlyCrlf x.text)) ∧
      (¬crlf <:+: source →
        (¬crlf <:+: n ↔ ∀ d ∈ forwardAll module.exports, ∀ x ∈ d.defaults, ¬crlf <:+: x.text)) := by
  obtain ⟨w', hexec, -⟩ := exec_update tree link source w
  rw [hexec] at h
  obtain ⟨p, module, hfinds, houtcome⟩ := exists_finds h rfl
  obtain ⟨-, rfl, -⟩ := Plan.outcome_eq_changed_iff.1 houtcome.symm
  obtain ⟨hparsed, hsource⟩ := plan_parsed hfinds.plan
  have hkept (e : LineEnd) (hlink : e ∉ lineEnds source) (hseparator : e ∉ lineEnds p.separator) :
      e ∉ lineEnds (p.render module.exports) ↔
        ∀ d ∈ forwardAll module.exports, ∀ x ∈ d.defaults, e ∉ lineEnds x.text := by
    rw [hparsed.mem_lineEnds_render_iff (named_forwardAll hfinds.module.parse) (hsource ▸ hlink)
      hseparator]
    push Not
    rfl
  refine ⟨p, module, hfinds, fun hfeed honly => ?_, fun hnone => ?_⟩
  · have hcrlf : crlf <:+: source := by
      obtain ⟨x, y, rfl⟩ := List.append_of_mem hfeed
      obtain ⟨x', rfl⟩ := List.getLast?_eq_some_iff.1 (honly x y rfl)
      exact ⟨x', y, by simp [crlf]⟩
    have hseparator : p.separator = crlf := by
      rw [Plan.separator, hsource, lineSeparator_eq_crlf_iff]
      exact hcrlf
    have hrender := hkept .feed (feed_notMem_lineEnds.2 honly) (by rw [hseparator]; decide)
    simpa only [feed_notMem_lineEnds] using hrender
  · have hseparator : p.separator = ['\n'] := by
      rw [Plan.separator, hsource, lineSeparator_of_no_crlf hnone]
    have hrender := hkept .returnFeed (mt returnFeed_mem_lineEnds.1 hnone)
      (by rw [hseparator]; decide)
    simpa only [returnFeed_mem_lineEnds] using hrender

/-! ### A default with line ends of another kind -/

namespace MixedSample

open Sample (tree link)

/-- A link file whose lines end with a carriage return and a line feed, and its module, whose lines
end with a line feed. -/
def world : World where
  files := ⟨[(["A.lua"], .file (Utf8.encode "return require(game.a)\r\n".toList)),
    (["a.lua"], .file (Utf8.encode "export type A<T=\x7b\n\x7d>=T".toList))]⟩

def planOf : Plan :=
  let call : Expression := .call ⟨⟨7, 1, 8⟩, ⟨22, 1, 23⟩⟩
    (.name ⟨⟨7, 1, 8⟩, ⟨14, 1, 15⟩⟩ "require".toList)
    [.field ⟨⟨15, 1, 16⟩, ⟨21, 1, 22⟩⟩ (.name ⟨⟨15, 1, 16⟩, ⟨19, 1, 20⟩⟩ "game".toList) "a".toList]
    .parentheses
  ⟨⟨"/A.lua", "return require(game.a)\r\n".toList,
    ⟨[], some ⟨⟨.start, ⟨22, 1, 23⟩⟩, [call]⟩⟩⟩, call, .absolute ["a.lua"]⟩

/-- The chunk of the module. -/
def module : Chunk :=
  ⟨"/a.lua", "export type A<T=\x7b\n\x7d>=T".toList,
    ⟨[.typeDeclaration ⟨⟨.start, ⟨22, 2, 5⟩⟩, true, "A".toList,
      some [⟨⟨⟨14, 1, 15⟩, ⟨19, 2, 2⟩⟩, "T".toList, false,
        some (.composite ⟨⟨16, 1, 17⟩, ⟨19, 2, 2⟩⟩ .table [])⟩],
      .reference ⟨⟨21, 2, 4⟩, ⟨22, 2, 5⟩⟩ none "T".toList []⟩], none⟩⟩

/-- The new text of the link file. -/
def newText : List Char :=
  "local REQUIRED_MODULE = require(game.a)\r\n".toList ++
    "export type A<T = \x7b\n\x7d> = REQUIRED_MODULE.A<T>\r\nreturn REQUIRED_MODULE\r\n".toList

theorem read_module : world.files.read world.folder (.absolute ["a.lua"]) =
    .ok (Utf8.encode module.source) :=
  FileSystem.read_eq_ok_iff.2 ⟨["a.lua"], eq_ok_of_toOption (by decide), rfl⟩

theorem parse_link : Luau.parse link.text planOf.chunk.source = .ok planOf.chunk :=
  eq_ok_of_toOption (by decide +kernel)

theorem parse_module : Luau.parse (Path.absolute ["a.lua"]).text module.source = .ok module :=
  eq_ok_of_toOption (by decide +kernel)

theorem finds : Finds world.files world.folder tree link planOf.chunk.source planOf module where
  plan := result_plan_eq_ok_iff.2 ⟨["game", "a"],
    ⟨.mk "a" "ModuleScript" [.absolute ["a.lua"]] [], [tree]⟩, parse_link, rfl, rfl, rfl, rfl⟩
  module := ⟨_, _, read_module, Utf8.decode_encode _, parse_module⟩

theorem outcome_eq : planOf.outcome module.exports = .changed newText :=
  Plan.outcome_eq_changed_iff.2 ⟨List.cons_ne_nil _ _, by decide +kernel, by decide +kernel⟩

theorem exec_update_link : (exec (update tree link planOf.chunk.source :
    ExceptT Crash (StateM World) Outcome) world).1 = .ok (.changed newText) := by
  obtain ⟨w', hexec, -⟩ := exec_update tree link planOf.chunk.source world
  rw [hexec, finds.updated, outcome_eq]

end MixedSample

open MixedSample in
/-- The line feed of a default is left by itself in a link file all of whose line feeds stand behind
carriage returns. -/
theorem line_ends_kept_mixed :
    (exec (update Sample.tree Sample.link planOf.chunk.source :
        ExceptT Crash (StateM World) Outcome) world).1 = .ok (.changed newText) ∧
      '\n' ∈ planOf.chunk.source ∧ OnlyCrlf planOf.chunk.source ∧ ¬OnlyCrlf newText := by
  obtain ⟨p, m, hfinds, hcrlf, -⟩ := line_ends_kept exec_update_link
  obtain ⟨rfl, rfl⟩ := finds.unique hfinds
  have honly : OnlyCrlf planOf.chunk.source := feed_notMem_lineEnds.1 (by decide)
  have hdefault : ∃ d ∈ forwardAll module.exports, ∃ x ∈ d.defaults, .feed ∈ lineEnds x.text :=
    ⟨_, List.mem_singleton_self _, _, List.mem_singleton_self _, by decide⟩
  refine ⟨exec_update_link, by decide, honly, fun hnew => ?_⟩
  obtain ⟨d, hd, x, hx, hfeed⟩ := hdefault
  exact feed_notMem_lineEnds.2 ((hcrlf (by decide) honly).1 hnew d hd x hx) hfeed

end Link

end TypedLinks
