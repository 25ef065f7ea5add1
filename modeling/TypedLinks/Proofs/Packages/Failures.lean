import TypedLinks.Proofs.Link.Located
import TypedLinks.Proofs.Packages.Convergence
import TypedLinks.Proofs.Sourcemap.Walks

/-!
# Link files that fail

A link file that fails would fail again with the same problem, whatever was processed in between: it
is not written, and neither is its module, for a module that is written could be parsed before. What
could break this is that the file is written under another canonical path.
-/

namespace TypedLinks

open World Link

/-! ## Files that hold a chunk -/

/-- A file that holds a chunk under one path holds one under another. -/
theorem Link.Holds.of_sameFile {fs : FileSystem} {folder : DiskLocation} {a b : Path}
    {chunk : Luau.Chunk} (h : Holds fs folder a chunk) (hsame : fs.SameFile folder b a) :
    ∃ chunk', Holds fs folder b chunk' := by
  obtain ⟨bytes, text, hread, hdecode, hparse⟩ := h
  exact ⟨_, bytes, text, hsame.read_eq_ok hread, hdecode,
    Luau.parse_named hparse (Path.text_ne_nil b)⟩

section Step

variable {dryRun : Bool} {tree : Node} {q a : Path} {w w' : World} {x : Processed} {p : Problem}

/-- A link file that changes holds a chunk before. -/
theorem holds_of_change (h : exec (process false tree q) w = (.ok x, w'))
    (hx : x.outcome.isChanged = true) : ∃ chunk, Holds w.files w.folder x.link chunk := by
  obtain ⟨source, plan, module, hsource, hfinds, -, -⟩ := change_cases h hx
  obtain ⟨bytes, hread, hdecode⟩ := sourceOf_eq_ok_iff.1 hsource
  obtain ⟨-, -, hparse, -⟩ := result_plan_eq_ok_iff.1 hfinds.plan
  exact ⟨plan.chunk, bytes, source, hread, hdecode, hparse⟩

/-! ## Failures that last -/

/-- Whether the link file at a canonical path fails with a problem. -/
def Fails (tree : Node) (w : World) (link : Path) (p : Problem) : Prop :=
  outcomeAt w.files w.folder tree link = .ok (.failed p)

/-- The module of a link file that fails, if the work comes that far, holds no chunk. -/
theorem Fails.not_holds (h : Fails tree w a p) {m : Path}
    (hm : Selects w.files w.folder tree a m) (chunk : Luau.Chunk) :
    ¬Holds w.files w.folder m chunk := by
  intro hholds
  obtain ⟨source, plan, hsource, hplan, rfl⟩ := hm
  have hfinds : Finds w.files w.folder tree a source plan chunk := ⟨hplan, hholds⟩
  have hproblem := plan.problem?_outcome chunk.exports
  rw [Except.ok.inj ((hfinds.outcomeAt hsource).symm.trans h)] at hproblem
  cases hproblem

theorem fails_of_step (h : exec (process dryRun tree q) w = (.ok x, w'))
    (hx : x.outcome = .failed p) : Fails tree w' x.link p := by
  obtain ⟨houtcome, hfolder, heffect⟩ := step_cases h
  rw [Fails, heffect.files_eq (.inr (by rw [hx]; rfl)), hfolder, ← hx]
  exact (outcomeOf_eq_ok_iff.1 houtcome.symm).2

/-- A link file that fails goes on to fail, unless it is written under another canonical path. -/
theorem Fails.step (h : Fails tree w a p) (hstep : exec (process dryRun tree q) w = (.ok x, w'))
    (hlink : x.outcome.isChanged = true → w.files.SameFile w.folder a x.link → a = x.link) :
    Fails tree w' a p := by
  obtain ⟨houtcome, hfolder, heffect⟩ := step_cases hstep
  by_cases hkept : dryRun = true ∨ x.outcome.isChanged = false
  · rwa [Fails, heffect.files_eq hkept, hfolder]
  · obtain ⟨hwet, hchanged⟩ := not_or.1 hkept
    obtain rfl := Bool.eq_false_of_not_eq_true hwet
    have hchanged := Bool.eq_true_of_not_eq_false hchanged
    obtain ⟨chunk, hholds⟩ := holds_of_change hstep hchanged
    have hread {b : Path} (hb : ¬w.files.SameFile w.folder b x.link) :
        w'.files.read w.folder b = w.files.read w.folder b := by
      have hsame := (Processes.cons hstep (.nil w')).read_eq (a := b) (by simpa using fun _ => hb)
      rwa [hfolder] at hsame
    rw [Fails, hfolder, outcomeAt_congr (hread ?_) fun m hm => hread fun hsame => ?_]
    · exact h
    · intro hsame
      obtain rfl := hlink hchanged hsame
      have heq := (outcomeOf_eq_ok_iff.1 houtcome.symm).2
      rw [h] at heq
      rw [← Except.ok.inj heq] at hchanged
      cases hchanged
    · -- What is written could be parsed, and so the link file would not have failed.
      obtain ⟨chunk', hholds'⟩ := hholds.of_sameFile hsame
      exact h.not_holds hm chunk' hholds'

end Step

/-! ## Several link files -/

/-- Link files none of which fails under one canonical path and changes later under another. -/
def KeepsFailures (fs : FileSystem) (folder : DiskLocation) (xs : List Processed) : Prop :=
  xs.Pairwise fun y x => y.outcome.problem?.isSome = true → x.outcome.isChanged = true →
    fs.SameFile folder y.link x.link → y.link = x.link

/-- No file fails under one canonical path and changes under another if no file has two of them. -/
theorem keepsFailures_of_namesOnce {fs : FileSystem} {folder : DiskLocation} {xs : List Processed}
    (h : fs.NamesOnce folder fun a => ∃ x ∈ xs, a = x.link) : KeepsFailures fs folder xs :=
  List.pairwise_of_forall_mem_list fun y hy x hx _ _ ⟨l, hl, hl'⟩ =>
    h y.link x.link l ⟨y, hy, rfl⟩ ⟨x, hx, rfl⟩ hl hl'

theorem FileSystem.SameShape.keepsFailures {fs fs' : FileSystem} (h : fs.SameShape fs')
    {folder : DiskLocation} {xs : List Processed} :
    KeepsFailures fs folder xs ↔ KeepsFailures fs' folder xs := by
  unfold KeepsFailures
  simp only [h.sameFile]

section Run

variable {dryRun : Bool} {tree : Node} {a : Path} {w w' : World} {ps : List Path}
  {xs : List Processed} {p : Problem}

theorem Fails.run (hfails : Fails tree w a p) (h : Processes dryRun tree w ps xs w')
    (hlinks : ∀ x ∈ xs, x.outcome.isChanged = true → w.files.SameFile w.folder a x.link →
      a = x.link) : Fails tree w' a p := by
  induction h with
  | nil => exact hfails
  | cons first _ ih =>
    obtain ⟨hfirst, hlinks⟩ := List.forall_mem_cons.1 hlinks
    obtain ⟨-, hfolder, heffect⟩ := step_cases first
    refine ih (hfails.step first hfirst) fun x hx hchanged hsame => hlinks x hx hchanged ?_
    rwa [hfolder, ← heffect.sameShape.sameFile] at hsame

/-- In the end the link files that failed would fail again, each with its problem. -/
theorem Processes.fails (h : Processes dryRun tree w ps xs w')
    (hkeeps : KeepsFailures w.files w.folder xs) :
    ∀ x ∈ xs, ∀ p, x.outcome = .failed p → Fails tree w' x.link p := by
  induction h with
  | nil => exact List.forall_mem_nil _
  | cons first others ih =>
    obtain ⟨hfirst, hothers⟩ := List.pairwise_cons.1 hkeeps
    obtain ⟨-, hfolder, heffect⟩ := step_cases first
    have hshape := heffect.sameShape
    refine List.forall_mem_cons.2 ⟨fun p hp => ?_, ih ?_⟩
    · refine (fails_of_step first hp).run others fun x hx hchanged hsame => ?_
      rw [hfolder, ← hshape.sameFile] at hsame
      exact hfirst x hx (by rw [hp]; rfl) hchanged hsame
    · rw [hfolder, ← hshape.keepsFailures]
      exact hothers

end Run

/-! ## What is shown of a failure -/

/-- A problem is located in a file and shows the text that the file holds. -/
def ShowsFile (w : World) (file : Path) (p : Problem) : Prop :=
  ∃ bytes text, w.files.read w.folder file = .ok bytes ∧ Utf8.decode bytes = .ok text ∧
    p.LocatedIn file.text text

theorem ShowsFile.source_eq {w : World} {file : Path} {p q : Problem} (h : ShowsFile w file p)
    (h' : ShowsFile w file q) : p.source = q.source := by
  obtain ⟨bytes, text, hread, hdecode, hp⟩ := h
  obtain ⟨bytes', text', hread', hdecode', hq⟩ := h'
  obtain rfl := Except.ok.inj (hread.symm.trans hread')
  obtain rfl := Except.ok.inj (hdecode.symm.trans hdecode')
  rw [hp.shown, hq.shown]

theorem ShowsFile.file_eq {w : World} {file : Path} {p : Problem} (h : ShowsFile w file p)
    {l : Location} (hl : p.location = some l) : l.file = file.text := by
  obtain ⟨-, -, -, -, -, own, hown, hfile, -⟩ := h
  obtain rfl := Option.some.inj (hown.symm.trans hl)
  exact hfile

section Shown

variable {tree : Node} {w : World} {link : Path} {source : List Char} {p : Problem}

theorem location_of_sourceOf {bytes : Except DiskFault (List UInt8)}
    (h : sourceOf link bytes = .error (.problem p)) : p.location = none := by
  unfold sourceOf at h
  rcases bytes with (_ | _ | _) | bs
  · cases h
    rfl
  · cases h
    rfl
  · cases h
  · cases hdecode : Utf8.decode bs with
    | error fault =>
      simp only [Except.mapError, bind, Except.bind, hdecode] at h
      cases h
      rfl
    | ok text =>
      simp only [Except.mapError, bind, Except.bind, hdecode] at h
      cases h

/-- A link file of a text fails because its module is not found, or after that. -/
theorem cases_of_updated {fs : FileSystem} {folder : DiskLocation}
    (h : updated fs folder tree link source = .ok (.failed p)) :
    (∃ stage, (plan tree link source).result = .error (.problem stage p)) ∨
      ∃ found stage, (plan tree link source).result = .ok found ∧
        (found.finish link (fs.read folder found.module)).result = .error (.problem stage p) := by
  have hhalt {halt : Halt} (h : halt.outcome = .ok (.failed p)) :
      ∃ stage, halt = .problem stage p := by
    cases halt <;> cases h
    exact ⟨_, rfl⟩
  unfold updated at h
  split at h
  · rename_i halt hplan
    obtain ⟨stage, rfl⟩ := hhalt h
    exact .inl ⟨stage, hplan⟩
  · rename_i found hplan
    cases hfinish : (found.finish link (fs.read folder found.module)).result with
    | error halt =>
      rw [hfinish] at h
      obtain ⟨stage, rfl⟩ := hhalt h
      exact .inr ⟨found, stage, hplan, hfinish⟩
    | ok outcome =>
      rw [hfinish] at h
      obtain rfl : outcome = .failed p := Except.ok.inj h
      obtain ⟨_, _, chunk, -, -, -, houtcome⟩ := result_finish_eq_ok_iff.1 hfinish
      have hproblem := found.problem?_outcome chunk.exports
      rw [← houtcome] at hproblem
      cases hproblem

/-- The module of a link file is one of the files of the sourcemap. -/
theorem mem_allPaths_of_plan {found : Plan} (h : (plan tree link source).result = .ok found) :
    found.module ∈ tree.allPaths := by
  obtain ⟨path, target, -, -, -, htarget, hmodule⟩ := result_plan_eq_ok_iff.1 h
  have hin := (Node.resolve_eq_ok_iff.1 htarget).isIn
  exact hin.allPaths_subset (target.node.paths_subset_allPaths (List.mem_of_find?_eq_some hmodule))

/-- The problem of a link file that fails has no place, or it shows the link file or its module. -/
theorem Fails.shown (h : Fails tree w link p) :
    p.location = none ∨ ∃ file, (file = link ∨ file ∈ tree.allPaths) ∧ ShowsFile w file p := by
  unfold Fails outcomeAt at h
  split at h
  · cases h
  · rename_i q hsource
    cases h
    exact .inl (location_of_sourceOf hsource)
  rename_i source hsource
  obtain ⟨bytes, hread, hdecode⟩ := sourceOf_eq_ok_iff.1 hsource
  right
  rcases cases_of_updated h with ⟨stage, hplan⟩ | ⟨found, stage, hplan, hfinish⟩
  · exact ⟨link, .inl rfl, bytes, source, hread, hdecode, located_of_plan hplan⟩
  · rcases located_of_finish hplan hfinish with hp | ⟨-, bytes', text, hread', hdecode', hp⟩
    · exact ⟨link, .inl rfl, bytes, source, hread, hdecode, hp⟩
    · exact ⟨found.module, .inr (mem_allPaths_of_plan hplan), bytes', text, hread', hdecode', hp⟩

end Shown

end TypedLinks
