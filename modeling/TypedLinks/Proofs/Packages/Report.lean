import TypedLinks.Proofs.Disk.Spelled
import TypedLinks.Proofs.Packages.Failures
import TypedLinks.Proofs.Packages.Listing

/-!
# The report of a batch

The report keeps one text for each file, the one that came with the latest problem in it, and still
shows every problem as it would show itself: at the end of a run the files that problems are located
in hold the very texts that came with them, so two problems in one file came with one text.
-/

namespace TypedLinks

open World Link

/-! ## Texts of a report -/

namespace Diagnostic

/-- What is shown of a problem depends on the text of its own file only. -/
theorem render_congr {d : Diagnostic} {sources sources' : Sources}
    (h : ∀ l, d.location = some l → sources.lookup l.file = sources'.lookup l.file) (color : Bool) :
    d.render sources color = d.render sources' color := by
  have hlines : d.lines sources = d.lines sources' := by
    unfold lines
    cases hl : d.location with
    | none => rfl
    | some l =>
      dsimp only
      rw [h l hl]
  rw [render, render, hlines]

/-- The text of a file is found if the file has no other. -/
theorem lookup_eq_some {sources : Sources} {file text : Text} (h : (file, text) ∈ sources)
    (hunique : ∀ text', (file, text') ∈ sources → text' = text) :
    sources.lookup file = some text := by
  obtain ⟨text', htext'⟩ :=
    Option.isSome_iff_exists.1 (List.lookup_isSome_iff.2 ⟨_, h, beq_self_eq_true file⟩)
  obtain ⟨before, after, rfl, -⟩ := List.lookup_eq_some_iff.1 htext'
  rw [htext', hunique text' (List.mem_append_right before List.mem_cons_self)]

end Diagnostic

theorem Problem.mem_sources {p : Problem} {file text : Text} :
    (file, text) ∈ p.sources ↔
      (∃ l, p.location = some l ∧ l.file = file) ∧ p.source = some text := by
  unfold sources
  split
  · rename_i l source hl hsource
    rw [List.mem_singleton, Prod.mk.injEq, hl, hsource]
    simp [eq_comm]
  · rename_i hnone
    refine iff_of_false List.not_mem_nil ?_
    rintro ⟨⟨l, hl, -⟩, hsource⟩
    exact hnone l text hl hsource

/-- Problems that came with texts that agree: each that has a place came with one, and those in one
file came with the same. -/
structure Agree (ps : List Problem) : Prop where
  sourced : ∀ p ∈ ps, ∀ l, p.location = some l → ∃ text, p.source = some text
  same : ∀ p ∈ ps, ∀ q ∈ ps, ∀ k l, p.location = some k → q.location = some l →
    k.file = l.file → p.source = q.source

namespace Batch

variable {b : Batch}

/-- The texts of a report are those of its problems. -/
theorem mem_sources_report {x : Text × Text} :
    x ∈ b.report.sources ↔ ∃ p ∈ b.problems, x ∈ p.sources := by
  have hfold (ps : List Problem) (r : Report) :
      x ∈ (ps.foldl Report.add r).sources ↔ x ∈ r.sources ∨ ∃ p ∈ ps, x ∈ p.sources := by
    induction ps generalizing r with
    | nil => simp
    | cons p ps ih =>
      rw [List.foldl_cons, ih, Report.add, List.mem_append, List.exists_mem_cons_iff,
        or_comm (a := x ∈ p.sources), or_assoc]
  rw [report, hfold]
  exact or_iff_right List.not_mem_nil

/-- A report of problems whose texts agree shows each problem as it shows itself. -/
theorem render_report (h : Agree b.problems) (color : Bool) :
    b.report.render color =
      Text.join "\n\n" (b.problems.map (·.render color) ++ [b.report.summary color]) := by
  rw [Report.render, diagnostics_report, List.map_map]
  refine congrArg (fun shown => Text.join "\n\n" (shown ++ [b.report.summary color])) ?_
  refine List.map_congr_left fun p hp => Diagnostic.render_congr (fun l hl => ?_) color
  obtain ⟨text, htext⟩ := h.sourced p hp l hl
  have hmem : (l.file, text) ∈ p.sources := Problem.mem_sources.2 ⟨⟨l, hl, rfl⟩, htext⟩
  rw [Diagnostic.lookup_eq_some (mem_sources_report.2 ⟨p, hp, hmem⟩),
    Diagnostic.lookup_eq_some hmem]
  · intro text' htext'
    exact Option.some.inj ((Problem.mem_sources.1 htext').2.symm.trans htext)
  · intro text' htext'
    obtain ⟨q, hq, htext'⟩ := mem_sources_report.1 htext'
    obtain ⟨⟨k, hk, hfile⟩, hsource⟩ := Problem.mem_sources.1 htext'
    exact Option.some.inj (hsource.symm.trans ((h.same q hq p hp k l hk hl hfile).trans htext))

end Batch

/-! ## Paths that are known by their texts -/

/-- Whether the names in a world can be names of paths that are read. -/
structure World.Spelled (w : World) : Prop where
  folder : ∀ name ∈ w.folder, Path.IsName name
  files : ∀ x ∈ w.files.entries, ∀ name ∈ x.1, Path.IsName name

theorem World.Spelled.isName {w : World} (h : w.Spelled) {p : Path} {names : List Text}
    (hnames : w.files.names w.folder p = .ok names) : ∀ name ∈ names, Path.IsName name := by
  unfold FileSystem.names at hnames
  cases hl : w.files.locate w.folder p with
  | error fault =>
    rw [hl] at hnames
    cases hnames
  | ok l =>
    rw [hl] at hnames
    dsimp only [bind, Except.bind] at hnames
    split at hnames
    · cases hnames
      intro name hname
      obtain ⟨⟨k, entry⟩, hk, hname⟩ := List.mem_filterMap.1 hname
      dsimp only at hname
      split at hname
      · exact h.files _ hk name (List.mem_of_getLast? hname)
      · cases hname
    · cases hnames

namespace Packages

variable {w : World} {folder index : Path} {links : List Path}

theorem spelled_of_linksIn (hw : w.Spelled) (hfolder : folder.Spelled)
    (h : (@linksIn Id _ w.frozen folder).run = Except.ok links) : ∀ p ∈ links, p.Spelled := by
  let := w.frozen
  obtain ⟨names, hnames, h⟩ := Node.run_bind_eq_ok.1 h
  obtain ⟨files, hfiles, h⟩ := Node.run_bind_eq_ok.1 h
  cases h
  intro p hp
  obtain ⟨name, hname, rfl⟩ := List.mem_map.1 (List.mem_filter.1 hp).1
  exact hfolder.child (hw.isName hnames name (((of_keep hfiles).2 name).1 (mem_sorted.1 hname)).1)

theorem spelled_of_linksInIndex (hw : w.Spelled) (hindex : index.Spelled)
    (h : (@linksInIndex Id _ w.frozen index).run = Except.ok links) : ∀ p ∈ links, p.Spelled := by
  let := w.frozen
  obtain ⟨isFolder, hisFolder, h⟩ := Node.run_bind_eq_ok.1 h
  cases isFolder with
  | false =>
    cases h
    exact List.forall_mem_nil _
  | true =>
    obtain ⟨names, hnames, h⟩ := Node.run_bind_eq_ok.1 h
    obtain ⟨dependencies, -, hmem, rfl⟩ := of_linksInFolders h
    intro p hp
    obtain ⟨name, hname, hp⟩ := List.mem_flatMap.1 hp
    have hname := hw.isName hnames name (mem_sorted.1 ((hmem name).1 hname).1)
    unfold linksOrNone at hp
    cases hlinks : (linksIn (index.child name) : ExceptT DiskFault Id (List Path)).run with
    | error fault =>
      rw [hlinks] at hp
      cases hp
    | ok own =>
      rw [hlinks] at hp
      exact spelled_of_linksIn hw (hindex.child hname) hlinks p hp

/-- The link files of a spelled folder are spelled. -/
theorem spelled_of_discover (hw : w.Spelled) (hfolder : folder.Spelled)
    (h : exec (discover folder) w = (.ok links, w)) : ∀ p ∈ links, p.Spelled := by
  rw [exec_discover] at h
  obtain ⟨-, own, indexed, hown, hindexed, rfl⟩ :=
    (@discovered_eq_ok_iff w.frozen folder links).1 (Prod.mk.inj h).1
  refine List.forall_mem_append.2 ⟨spelled_of_linksIn hw hfolder hown, ?_⟩
  exact spelled_of_linksInIndex hw (hfolder.child ⟨by decide, by decide⟩) hindexed

end Packages

/-! ## What a report shows -/

section Run

variable {dryRun : Bool} {tree : Node} {folder : Path} {w w' : World} {links : List Path}
  {xs : List Processed} {b : Batch}

theorem Outcome.problem?_eq_some_iff {o : Outcome} {p : Problem} :
    o.problem? = some p ↔ o = .failed p := by
  cases o <;> simp [Outcome.problem?]

/-- The link files of a run are processed under spelled paths. -/
theorem Processes.spelled (h : Processes dryRun tree w links xs w') (hw : w.Spelled)
    (hlinks : ∀ p ∈ links, p.Spelled) : ∀ x ∈ xs, x.link.Spelled := by
  intro x hx
  obtain ⟨i, hi, rfl⟩ := List.getElem_of_mem hx
  have hi' : i < links.length := h.length_eq ▸ hi
  exact FileSystem.spelled_of_withoutLinks hw.folder (hlinks _ (List.getElem_mem hi'))
    (h.links.get hi' hi)

/-- At the end of a run each problem with a place shows what its file holds then: a link file that
was processed, or a file of the sourcemap. -/
theorem Processes.shown (h : Processes dryRun tree w links xs w')
    (hkeeps : KeepsFailures w.files w.folder xs) {p : Problem} (hp : p ∈ (Batch.mk xs).problems) :
    p.location = none ∨
      ∃ file, ((∃ x ∈ xs, file = x.link) ∨ file ∈ tree.allPaths) ∧ ShowsFile w' file p := by
  obtain ⟨o, ho, hproblem⟩ := List.mem_filterMap.1 hp
  obtain ⟨x, hx, rfl⟩ := List.mem_map.1 ho
  have hfails := h.fails hkeeps x hx p (Outcome.problem?_eq_some_iff.1 hproblem)
  refine hfails.shown.imp_right fun ⟨file, hfile, hshows⟩ => ⟨file, ?_, hshows⟩
  exact hfile.imp_left fun hlink => ⟨x, hx, hlink⟩

/-- The problems of a run came with texts that agree. -/
theorem Processes.agree (h : Processes dryRun tree w links xs w')
    (hkeeps : KeepsFailures w.files w.folder xs) (hxs : ∀ x ∈ xs, x.link.Spelled)
    (htree : ∀ p ∈ tree.allPaths, p.Spelled) : Agree (Batch.mk xs).problems := by
  have hshown {p : Problem} (hp : p ∈ (Batch.mk xs).problems) {l : Location}
      (hl : p.location = some l) : ∃ file : Path, file.Spelled ∧ ShowsFile w' file p := by
    rcases h.shown hkeeps hp with hnone | ⟨file, hfile, hshows⟩
    · rw [hnone] at hl
      cases hl
    · refine ⟨file, ?_, hshows⟩
      rcases hfile with ⟨x, hx, rfl⟩ | hfile
      · exact hxs x hx
      · exact htree file hfile
  constructor
  · intro p hp l hl
    obtain ⟨file, -, bytes, text, -, -, hlocated⟩ := hshown hp hl
    exact ⟨_, hlocated.shown⟩
  · intro p hp q hq k l hk hl hfile
    obtain ⟨a, ha, hp⟩ := hshown hp hk
    obtain ⟨c, hc, hq⟩ := hshown hq hl
    obtain rfl : a = c := ha.eq_of_text hc (by rw [← hp.file_eq hk, ← hq.file_eq hl, hfile])
    exact hp.source_eq hq

/-- The report of a run shows the problem of each link file that failed as it shows itself, in order,
and then the summary; if no file fails under one canonical path and changes later under another. -/
theorem report_shows_each_problem (h : exec (Batch.run dryRun tree folder) w = (.ok b, w'))
    (hw : w.Spelled) (hfolder : folder.Spelled) (htree : ∀ p ∈ tree.allPaths, p.Spelled)
    (hkeeps : KeepsFailures w.files w.folder b.processed) (color : Bool) :
    b.report.render color =
      Text.join "\n\n" (b.problems.map (·.render color) ++ [b.report.summary color]) := by
  refine b.render_report ?_ color
  rcases run_cases h with ⟨stop, -, hr, -⟩ | ⟨links, hdiscover, hend⟩
  · cases hr
  rcases hend with ⟨xs, v, hdone, -, hr⟩ | ⟨xs, c, -, hr⟩
  · cases hr
    have hlinks := Packages.spelled_of_discover hw hfolder hdiscover
    exact hdone.agree hkeeps (hdone.spelled hw hlinks) htree
  · cases hr

end Run

/-! ### Two problems in one module -/

namespace OneModule

/-- Two link files of a module that is not parsed, and one of a module that is. -/
def world : World where
  files := ⟨[(["P"], .folder),
    (["P", "A.lua"], .file (Utf8.encode "return require(game.m)".toList)),
    (["P", "B.lua"], .file (Utf8.encode "return require(game.m)".toList)),
    (["P", "C.lua"], .file (Utf8.encode "return require(game.n)".toList)),
    (["m.lua"], .file (Utf8.encode "f(".toList)),
    (["n.lua"], .file (Utf8.encode "export type T=nil".toList))]⟩

/-- A module in a sourcemap. -/
def moduleAt (name file : Text) : Json :=
  .object [("name", .string name), ("className", .string "ModuleScript"),
    ("filePaths", .array [.string file])]

/-- The sourcemap of the modules. -/
def sourcemap : Json :=
  .object [("name", .string "game"), ("className", .string "DataModel"),
    ("children", .array [moduleAt "m" "m.lua", moduleAt "n" "n.lua"])]

/-- The instances of the sourcemap, with the paths that its file gives. -/
def written : Node :=
  .mk "game" "DataModel" [] [.mk "m" "ModuleScript" [.ofText "m.lua"] [],
    .mk "n" "ModuleScript" [.ofText "n.lua"] []]

theorem shows_written : sourcemap.Shows written := by
  have hmodule (name file : Text) :
      (moduleAt name file).Shows (.mk name "ModuleScript" [.ofText file] []) :=
    .mk (@Json.Describes.object _ _ _ [file] _ rfl rfl (.present rfl) (.missing rfl)) .nil
  exact .mk (@Json.Describes.object _ _ _ [] _ rfl rfl (.missing rfl) (.present rfl))
    (.cons (hmodule _ _) (.cons (hmodule _ _) .nil))

/-- The instances of the sourcemap, with canonical paths. -/
def tree : Node :=
  .mk "game" "DataModel" [] [.mk "m" "ModuleScript" [.absolute ["m.lua"]] [],
    .mk "n" "ModuleScript" [.absolute ["n.lua"]] []]

def links : List Path :=
  [.absolute ["P", "A.lua"], .absolute ["P", "B.lua"], .absolute ["P", "C.lua"]]

end OneModule

open OneModule in
/-- Two problems are shown, both in the same module of a sourcemap that was read. -/
theorem report_shows_oneModule :
    Node.ofJson Node.topPlace sourcemap = .ok written ∧
    exec (written.canonicalize (.absolute [])) world = (.ok tree, world) ∧
    ∃ b w', exec (Batch.run false tree (.absolute ["P"])) world = (.ok b, w') ∧ world.Spelled ∧
      (Path.absolute ["P"]).Spelled ∧ (∀ p ∈ tree.allPaths, p.Spelled) ∧
      KeepsFailures world.files world.folder b.processed ∧
      (b.problems.map fun p => p.location.map (·.file)) =
        [some (Path.absolute ["m.lua"]).text, some (Path.absolute ["m.lua"]).text] ∧
      b.report.render false =
        Text.join "\n\n" (b.problems.map (·.render false) ++ [b.report.summary false]) := by
  have hread : Node.ofJson Node.topPlace sourcemap = .ok written :=
    Json.ofJson_eq_ok_iff.2 shows_written
  have hcanonical : exec (written.canonicalize (.absolute [])) world = (.ok tree, world) := by cbv
  have hdiscover : exec (Packages.discover (.absolute ["P"])) world = (.ok links, world) := by cbv
  have hrun : (exec (Batch.ofLinks false tree links) world).1.toOption.any (fun b =>
      (b.problems.map fun p => p.location.map (·.file)) =
          [some (Path.absolute ["m.lua"]).text, some (Path.absolute ["m.lua"]).text] &&
        b.processed.all fun x => x.link.root = .slash &&
          (world.files.locate world.folder x.link).toOption.any (· = x.link.names)) = true := by
    decide +kernel
  obtain ⟨b, hb, hrun⟩ := Luau.exists_ok_of_any hrun
  obtain ⟨hproblems, hlinks⟩ := Bool.and_eq_true_iff.1 hrun
  obtain ⟨w', hbatch⟩ := exec_run_of_links hdiscover hb
  have hw : world.Spelled := ⟨by decide, by decide⟩
  have htree : ∀ p ∈ tree.allPaths, p.Spelled :=
    Node.spelled_of_canonicalize hw.folder (by decide) (Node.spelled_of_ofJson hread) hcanonical
  have hkeeps : KeepsFailures world.files world.folder b.processed := by
    refine keepsFailures_of_namesOnce (FileSystem.namesOnce_of_located ?_)
    rintro p ⟨x, hx, rfl⟩
    obtain ⟨hroot, hlocate⟩ := Bool.and_eq_true_iff.1 (List.all_eq_true.1 hlinks x hx)
    obtain ⟨l, hl, hnames⟩ := Luau.exists_ok_of_any hlocate
    have hroot : x.link.root = .slash := of_decide_eq_true hroot
    have hnames : l = x.link.names := of_decide_eq_true hnames
    exact ⟨l, by rw [hnames, Path.absolute, ← hroot], hl⟩
  exact ⟨hread, hcanonical, b, w', hbatch, hw, by decide, htree, hkeeps, of_decide_eq_true hproblems,
    report_shows_each_problem hbatch hw (by decide) htree hkeeps false⟩

/-! ### One link file under two canonical paths -/

namespace TwoNames

/-- A link file with two links to it. -/
def world : World where
  files := ⟨[(["Pé"], .folder),
    (["Pé", "A.lua"], .file (Utf8.encode "return require(script.Parent.m)".toList)),
    (["Pé", "B.lua"], .link "/Pé/A.lua"), (["Pé", "C.lua"], .link "A.lua"),
    (["m.lua"], .file (Utf8.encode "export type T=nil".toList))]⟩

/-- The sourcemap of the link file and its module. -/
def tree : Node :=
  .mk "game" "DataModel" [] [.mk "A" "ModuleScript" [.absolute ["Pé", "A.lua"]] [],
    .mk "m" "ModuleScript" [.absolute ["m.lua"]] []]

/-- The folder of the link file, with a code point for each byte of the accented letter. -/
def folder : Path := .absolute [[CodePoint.ofChar 'P', Text.looseByte 0xC3, Text.looseByte 0xA9]]

def links : List Path := [folder.child "A.lua", folder.child "B.lua", folder.child "C.lua"]

end TwoNames

open TwoNames in
/-- The link file fails under the name that is not in the sourcemap, is written under the other, and
fails once more under the first; the first problem is shown with the text of the second. -/
theorem report_mixes_texts :
    exec (tree.canonicalize (.absolute [])) world = (Except.ok tree, world) ∧
    ∃ b w', exec (Batch.run false tree folder) world = (.ok b, w') ∧ b.report.render false ≠
      Text.join "\n\n" (b.problems.map (·.render false) ++ [b.report.summary false]) := by
  have hcanonical : exec (tree.canonicalize (.absolute [])) world = (Except.ok tree, world) := by
    cbv
  have hdiscover : exec (Packages.discover folder) world = (.ok links, world) := by cbv
  have hrun : (exec (Batch.ofLinks false tree links) world).1.toOption.any (fun b =>
      b.report.render false ≠
        Text.join "\n\n" (b.problems.map (·.render false) ++ [b.report.summary false])) = true := by
    decide +kernel
  obtain ⟨b, hb, hne⟩ := Luau.exists_ok_of_any hrun
  obtain ⟨w', hbatch⟩ := exec_run_of_links hdiscover hb
  exact ⟨hcanonical, b, w', hbatch, of_decide_eq_true hne⟩

end TypedLinks
