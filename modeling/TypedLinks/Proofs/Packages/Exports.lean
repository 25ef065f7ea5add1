import TypedLinks.Proofs.Link.FixedPoint
import TypedLinks.Proofs.Packages.Runs

/-!
# What a processed link file exports

A link file that was processed exports the types of its module under the same names and in the same
order, whatever it exported before. The one exception is a module that exports no type: its link file
is left untouched, and keeps what it exported.
-/

namespace TypedLinks

open Link World

theorem names_of_written {ds es : List Declaration}
    (h : ds.map Declaration.written = es.map Declaration.written) :
    ds.map (·.name) = es.map (·.name) := by
  have hnames := congrArg (List.map Prod.fst) h
  rwa [List.map_map, List.map_map] at hnames

section Process

variable {tree : Node} {p : Path} {w w' : World} {x : Processed}

/-- A link file that was processed holds the text that its plan renders, and its module is as it
was. -/
theorem render_of_process {source : List Char} {plan : Plan} {module : Luau.Chunk}
    (h : exec (process false tree p) w = (.ok x, w'))
    (hsource : sourceOf x.link (w.files.read w.folder x.link) = .ok source)
    (hfinds : Finds w.files w.folder tree x.link source plan module)
    (houtcome : x.outcome = plan.outcome module.exports) (hexports : module.exports ≠ [])
    (hmodule : ¬w.files.SameFile w.folder x.link plan.module) :
    (∃ bytes, w'.files.read w'.folder x.link = .ok bytes ∧
      Utf8.decode bytes = .ok (plan.render module.exports)) ∧
        Holds w'.files w'.folder plan.module module := by
  obtain ⟨-, hfolder, heffect⟩ := step_cases h
  obtain ⟨bytes, hread, hdecode⟩ := sourceOf_eq_ok_iff.1 hsource
  obtain ⟨-, rfl⟩ := plan_parsed hfinds.plan
  rw [hfolder]
  by_cases hsame : plan.render module.exports = plan.chunk.source
  · have hunchanged : x.outcome = .unchanged :=
      houtcome.trans (Plan.outcome_eq_unchanged_iff.2 (.inr hsame))
    rw [heffect.files_eq (.inr (by rw [hunchanged]; rfl)), hsame]
    exact ⟨⟨bytes, hread, hdecode⟩, hfinds.module⟩
  · have hchanged : x.outcome = .changed (plan.render module.exports) :=
      houtcome.trans (Plan.outcome_eq_changed_iff.2 ⟨hexports, rfl, hsame⟩)
    have hwrite := heffect.write_eq hchanged
    exact ⟨⟨_, FileSystem.read_write hwrite, Utf8.decode_encode _⟩, hfinds.module.congr
      (FileSystem.read_write_of_ne hwrite fun l hl hl' => hmodule ⟨l, hl, hl'⟩)⟩

/-- A link file that was processed exports the types of its module under the same names and in the
same order, if there are any, and the link file is not its own module. If there are none, it is left
as it was. -/
theorem processed_link_exports (h : exec (process false tree p) w = (.ok x, w'))
    (hx : x.outcome.problem? = none) :
    ∃ source plan module, sourceOf x.link (w.files.read w.folder x.link) = .ok source ∧
      Finds w.files w.folder tree x.link source plan module ∧
      (module.exports = [] → x.outcome = .unchanged ∧ w'.files = w.files) ∧
      (module.exports ≠ [] → ¬w.files.SameFile w.folder x.link plan.module → plan.KeepsOpen module →
        module.exports.all Declaration.isApplicable = true →
        ∃ chunk, Holds w'.files w'.folder x.link chunk ∧
          Holds w'.files w'.folder plan.module module ∧
          chunk.exports.map (·.name) = module.exports.map (·.name)) := by
  obtain ⟨source, hsource, hupdated⟩ :=
    exists_source (outcomeOf_eq_ok_iff.1 (step_cases h).1.symm).2 hx
  obtain ⟨plan, module, hfinds, houtcome⟩ := exists_finds hupdated hx
  refine ⟨source, plan, module, hsource, hfinds, fun hexports => ?_,
    fun hexports hmodule hopen happlicable => ?_⟩
  · have hunchanged := houtcome.trans (Plan.outcome_eq_unchanged_iff.2 (.inl hexports))
    exact ⟨hunchanged, (step_cases h).2.2.files_eq (.inr (by rw [hunchanged]; rfl))⟩
  obtain ⟨⟨bytes, hread, hdecode⟩, hholds⟩ :=
    render_of_process h hsource hfinds houtcome hexports hmodule
  obtain ⟨chunk, call, hparse, hdecodes⟩ := (plan_parsed hfinds.plan).1.exists_decodes
    (Path.text_ne_nil _) hfinds.module.parse hexports hopen happlicable
  exact ⟨chunk, ⟨bytes, _, hread, hdecode, hparse⟩, hholds,
    (names_of_written hdecodes.exports).trans (names_forwardAll _)⟩

end Process

/-! ## Stale link files -/

namespace Link.Stale

open Sample

/-- What a link file that was updated decodes to. -/
theorem exists_chunk : ∃ chunk call, Luau.parse link.text newText = .ok chunk ∧
    planOf.Decodes Sample.module.exports chunk call := by
  rw [← render_eq]
  exact (plan_parsed Sample.finds.plan).1.exists_decodes (Path.text_ne_nil _) parse_module
    (List.cons_ne_nil _ _) Sample.keepsOpen rfl

/-- A link file that was updated, whose module has other types now. -/
def renamed : World where
  files := ⟨[(["A.lua"], .file (Utf8.encode newText)),
    (["a.lua"], .file (Utf8.encode "export type C=nil export type B<T=C>=T".toList))]⟩

theorem exists_renamed : ∃ module, Holds renamed.files renamed.folder (.absolute ["a.lua"]) module ∧
    module.exports.map (·.name) = ["C".toList, "B".toList] ∧
    (forwardAll module.exports).all Declaration.isPlain = true := by
  have hrun : (Luau.parse (Path.absolute ["a.lua"]).text
      "export type C=nil export type B<T=C>=T".toList).toOption.any (fun chunk =>
        chunk.exports.map (·.name) = ["C".toList, "B".toList] &&
          (forwardAll chunk.exports).all Declaration.isPlain) = true := by
    rw [String.toList_ofList]
    decide +kernel
  obtain ⟨module, hparse, hrun⟩ := Luau.exists_ok_of_any hrun
  obtain ⟨hnames, hplain⟩ := Bool.and_eq_true_iff.1 hrun
  have hread : renamed.files.read renamed.folder (.absolute ["a.lua"]) =
      .ok (Utf8.encode "export type C=nil export type B<T=C>=T".toList) :=
    FileSystem.read_eq_ok_iff.2 ⟨["a.lua"], eq_ok_of_toOption (by decide), rfl⟩
  exact ⟨module, ⟨_, _, hread, Utf8.decode_encode _, hparse⟩, of_decide_eq_true hnames, hplain⟩

end Link.Stale

open Sample in
/-- A stale link file of a module with two types. -/
theorem processed_link_exports_stale :
    ∃ stale x w' chunk, Holds Stale.renamed.files Stale.renamed.folder link stale ∧
      stale.exports.map (·.name) = ["A".toList] ∧
      exec (process false tree link : ExceptT Crash (StateM World) Processed) Stale.renamed =
        (.ok x, w') ∧
      Holds w'.files w'.folder x.link chunk ∧
      chunk.exports.map (·.name) = ["C".toList, "B".toList] := by
  obtain ⟨stale, call, hparse, hdecodes⟩ := Stale.exists_chunk
  obtain ⟨module, hmodule, hnames, hplain⟩ := Stale.exists_renamed
  have hlocate : Stale.renamed.files.locate Stale.renamed.folder link = .ok ["A.lua"] :=
    eq_ok_of_toOption (by decide)
  have hlocateModule : Stale.renamed.files.locate Stale.renamed.folder (.absolute ["a.lua"]) =
      .ok ["a.lua"] :=
    eq_ok_of_toOption (by decide)
  have hread : Stale.renamed.files.read Stale.renamed.folder link = .ok (Utf8.encode newText) :=
    FileSystem.read_eq_ok_iff.2 ⟨_, hlocate, rfl⟩
  have hlink : Stale.renamed.files.withoutLinks Stale.renamed.folder link = .ok link :=
    eq_ok_of_toOption (by decide)
  have hfinds : Finds Stale.renamed.files Stale.renamed.folder tree link newText
      ⟨stale, call, .absolute ["a.lua"]⟩ module :=
    ⟨plan_again Sample.finds.plan hparse hdecodes, hmodule⟩
  have houtcome : outcomeOf Stale.renamed.files Stale.renamed.folder tree link =
      .ok ⟨link, (Plan.mk stale call (.absolute ["a.lua"])).outcome module.exports⟩ := by
    refine outcomeOf_eq_ok_iff.2 ⟨hlink, hfinds.outcomeAt ?_⟩
    rw [hread, sourceOf_encode]
  obtain ⟨w', h, -, -⟩ := exec_process false tree link Stale.renamed
  rw [houtcome] at h
  obtain ⟨source, plan, m, hsource, hfound, -, hexports⟩ :=
    processed_link_exports h (Plan.problem?_outcome _ _)
  rw [hread, sourceOf_encode] at hsource
  obtain rfl := Except.ok.inj hsource
  obtain ⟨rfl, rfl⟩ := hfinds.unique hfound
  have hne : m.exports ≠ [] := fun hnil => by
    rw [hnil] at hnames
    cases hnames
  have hstable : (Plan.mk stale call (.absolute ["a.lua"])).Stable m := by
    refine Plan.stable_of_isPlain ?_ ?_ hplain
    · rw [hdecodes.leadingTrivia]
      decide
    · rw [show (Plan.mk stale call _).callText = planOf.callText from hdecodes.callText]
      decide
  obtain ⟨chunk, hchunk, -, hnew⟩ := hexports hne
    (FileSystem.not_sameFile hlocate hlocateModule (by decide)) hstable.keepsOpen hstable.isApplicable
  exact ⟨stale, _, w', chunk, ⟨_, _, hread, Utf8.decode_encode _, hparse⟩,
    names_of_written hdecodes.exports, h, hchunk, hnew.trans hnames⟩

namespace Link.Stale

open Sample

/-- A link file that was updated, whose module exports no type any more. -/
def world : World where
  files := ⟨[(["A.lua"], .file (Utf8.encode newText)),
    (["a.lua"], .file (Utf8.encode "return 1".toList))]⟩

/-- The chunk of the module. -/
def module : Luau.Chunk :=
  ⟨"/a.lua", "return 1".toList,
    ⟨[], some ⟨⟨.start, ⟨8, 1, 9⟩⟩, [.plain ⟨⟨7, 1, 8⟩, ⟨8, 1, 9⟩⟩ .literal]⟩⟩⟩

theorem read_link : world.files.read world.folder link = .ok (Utf8.encode newText) :=
  FileSystem.read_eq_ok_iff.2 ⟨["A.lua"], eq_ok_of_toOption (by decide), rfl⟩

theorem holds_module : Holds world.files world.folder (.absolute ["a.lua"]) module :=
  ⟨_, "return 1".toList, FileSystem.read_eq_ok_iff.2 ⟨["a.lua"], eq_ok_of_toOption (by decide), rfl⟩,
    Utf8.decode_encode _, eq_ok_of_toOption (by decide +kernel)⟩

end Link.Stale

open Sample in
/-- A link file keeps a type that its module exports no more, if that exports no other. -/
theorem stale_link_untouched :
    ∃ chunk w', exec (process false tree link : ExceptT Crash (StateM World) Processed)
        Stale.world = (.ok ⟨link, .unchanged⟩, w') ∧
      Selects Stale.world.files Stale.world.folder tree link (.absolute ["a.lua"]) ∧
      ¬Stale.world.files.SameFile Stale.world.folder link (.absolute ["a.lua"]) ∧
      Holds w'.files w'.folder link chunk ∧ chunk.exports.map (·.name) = ["A".toList] ∧
      Holds w'.files w'.folder (.absolute ["a.lua"]) Stale.module ∧ Stale.module.exports = [] := by
  obtain ⟨chunk, call, hparse, hdecodes⟩ := Stale.exists_chunk
  have hfinds : Finds Stale.world.files Stale.world.folder tree link newText
      ⟨chunk, call, .absolute ["a.lua"]⟩ Stale.module :=
    ⟨plan_again Sample.finds.plan hparse hdecodes, Stale.holds_module⟩
  have hsource : sourceOf link (Stale.world.files.read Stale.world.folder link) = .ok newText := by
    rw [Stale.read_link, sourceOf_encode]
  have houtcome : outcomeOf Stale.world.files Stale.world.folder tree link =
      .ok ⟨link, .unchanged⟩ := by
    exact outcomeOf_eq_ok_iff.2 ⟨eq_ok_of_toOption (by decide), hfinds.outcomeAt hsource⟩
  obtain ⟨w', h, hfolder, heffect⟩ := exec_process false tree link Stale.world
  rw [houtcome] at h heffect
  refine ⟨chunk, w', h, ⟨newText, _, hsource, hfinds.plan, rfl⟩,
    FileSystem.not_sameFile (k := ["A.lua"]) (l := ["a.lua"]) (eq_ok_of_toOption (by decide))
      (eq_ok_of_toOption (by decide)) (by decide), ?_,
    names_of_written hdecodes.exports, ?_, rfl⟩
  · rw [heffect.files_eq (.inr rfl), hfolder]
    exact ⟨_, newText, Stale.read_link, Utf8.decode_encode _, hparse⟩
  · rw [heffect.files_eq (.inr rfl), hfolder]
    exact Stale.holds_module

end TypedLinks
