import TypedLinks.CommandLine.Run
import TypedLinks.Proofs.Packages.Runs
import TypedLinks.Proofs.Sourcemap.Loading
import TypedLinks.Proofs.Text.Encoding

/-!
# What a run touches

The files after a run are those before it, apart from the link files that were reported to change:
each of these holds the text of its last change. A run that stops at a fatal problem has touched
nothing.
-/

namespace TypedLinks

open World Link

/-- A link file, at a location, that changes. -/
structure Link.Processed.Changes (fs : FileSystem) (folder : DiskLocation) (x : Processed)
    (l : DiskLocation) : Prop where
  changed : x.outcome.isChanged = true
  located : fs.locate folder x.link = .ok l

theorem FileSystem.SameShape.changes {fs fs' : FileSystem} (h : fs.SameShape fs')
    {folder : DiskLocation} {x : Processed} {l : DiskLocation} :
    x.Changes fs folder l ↔ x.Changes fs' folder l :=
  ⟨fun ⟨hx, hl⟩ => ⟨hx, h.locate folder x.link ▸ hl⟩,
    fun ⟨hx, hl⟩ => ⟨hx, (h.locate folder x.link).symm ▸ hl⟩⟩

/-- If one of some link files changes at a location, there is a last one that does. -/
theorem exists_last_change {fs : FileSystem} {folder : DiskLocation} {l : DiskLocation}
    {xs : List Processed} (h : ∃ x ∈ xs, x.Changes fs folder l) :
    ∃ (ys : List Processed) (x : Processed) (zs : List Processed), xs = ys ++ x :: zs ∧
      x.Changes fs folder l ∧ ∀ z ∈ zs, ¬ z.Changes fs folder l := by
  induction xs with
  | nil =>
    obtain ⟨x, hx, -⟩ := h
    cases hx
  | cons x xs ih =>
    by_cases hlater : ∃ y ∈ xs, y.Changes fs folder l
    · obtain ⟨ys, y, zs, rfl, hy, hzs⟩ := ih hlater
      exact ⟨x :: ys, y, zs, rfl, hy, hzs⟩
    · obtain ⟨y, hy, hchanges⟩ := h
      rcases List.mem_cons.1 hy with rfl | hy
      · exact ⟨[], y, xs, rfl, hchanges, fun z hz hz' => hlater ⟨z, hz, hz'⟩⟩
      · exact absurd ⟨y, hy, hchanges⟩ hlater

section Step

variable {dryRun : Bool} {tree : Node} {p : Path} {w w' : World} {x : Processed}
  {l : DiskLocation} {s : List Char}

/-! ## One link file -/

/-- What is not the link file, or does not change, stays. -/
theorem entry?_of_step (h : exec (process dryRun tree p) w = (.ok x, w'))
    (hl : dryRun = true ∨ ¬ x.Changes w.files w.folder l) :
    w'.files.entry? l = w.files.entry? l := by
  obtain ⟨-, -, heffect⟩ := step_cases h
  generalize w'.files = fs' at heffect
  cases heffect with
  | kept => rfl
  | @written _ link s wet write =>
    obtain ⟨l', old, hl', hentry, rfl⟩ := FileSystem.write_eq_ok write
    rw [FileSystem.entry?_put hentry, if_neg]
    rintro rfl
    rcases hl with dry | hl
    · rw [wet] at dry
      contradiction
    · exact hl ⟨rfl, hl'⟩

/-- The file of a link file that changes holds its new text. -/
theorem entry?_of_change (h : exec (process false tree p) w = (.ok x, w'))
    (hx : x.outcome = .changed s) (hl : w.files.locate w.folder x.link = .ok l) :
    w'.files.entry? l = some (.file (Utf8.encode s)) := by
  obtain ⟨l', old, hl', hentry, hfiles⟩ :=
    FileSystem.write_eq_ok ((step_cases h).2.2.write_eq hx)
  obtain rfl : l' = l := Except.ok.inj (hl'.symm.trans hl)
  rw [hfiles, FileSystem.entry?_put hentry, if_pos rfl]

end Step

/-! ## Several link files -/

namespace Processes

variable {dryRun : Bool} {tree : Node} {w w' : World} {ps : List Path} {xs ys zs : List Processed}
  {x : Processed} {l : DiskLocation} {s : List Char}

theorem entry?_eq (h : Processes dryRun tree w ps xs w')
    (hl : dryRun = true ∨ ∀ x ∈ xs, ¬ x.Changes w.files w.folder l) :
    w'.files.entry? l = w.files.entry? l := by
  induction h with
  | nil => rfl
  | cons first _ ih =>
    obtain ⟨-, hfolder, heffect⟩ := step_cases first
    have hfirst := entry?_of_step first (hl.imp_right fun hl => hl _ List.mem_cons_self)
    rw [ih, hfirst]
    refine hl.imp_right fun hl y hy hchanges => hl y (List.mem_cons_of_mem _ hy) ?_
    rwa [hfolder, ← heffect.sameShape.changes] at hchanges

/-- A file is read as before unless it is a link file that changes. -/
theorem read_eq (h : Processes dryRun tree w ps xs w') {a : Path}
    (ha : ∀ x ∈ xs, x.outcome.isChanged = true → ¬w.files.SameFile w.folder a x.link) :
    w'.files.read w'.folder a = w.files.read w.folder a := by
  rw [h.folder]
  refine h.sameShape.read_eq fun l hl => h.entry?_eq (.inr fun x hx hchanges => ?_)
  exact ha x hx hchanges.changed ⟨l, hl, hchanges.located⟩

/-- The work at one of the outcomes, between what was done before and what is done after it. -/
theorem at_outcome (h : Processes dryRun tree w ps (ys ++ x :: zs) w') :
    ∃ before p after u u', ps = before ++ p :: after ∧ Processes dryRun tree w before ys u ∧
      exec (process dryRun tree p) u = (.ok x, u') ∧ Processes dryRun tree u' after zs w' := by
  obtain ⟨before, rest, u, rfl, hbefore, hrest⟩ := h.split
  cases hrest with
  | cons first others => exact ⟨before, _, _, u, _, rfl, hbefore, first, others⟩

/-- The last change of a file is what it holds. -/
theorem entry?_of_last_change (h : Processes false tree w ps (ys ++ x :: zs) w')
    (hx : x.outcome = .changed s) (hl : w.files.locate w.folder x.link = .ok l)
    (hzs : ∀ z ∈ zs, ¬ z.Changes w.files w.folder l) :
    w'.files.entry? l = some (.file (Utf8.encode s)) := by
  obtain ⟨before, p, after, u, u', rfl, hbefore, hstep, hafter⟩ := h.at_outcome
  have hshape := hbefore.sameShape
  have hshape' := hshape.trans (step_cases hstep).2.2.sameShape
  have hfolder' := (step_cases hstep).2.1.trans hbefore.folder
  rw [hafter.entry?_eq (.inr fun z hz => ?_), entry?_of_change hstep hx]
  · rwa [← hshape.locate, hbefore.folder]
  · rw [hfolder', ← hshape'.changes]
    exact hzs z hz

/-- A file that differs after link files were processed is one of them, its last outcome is a
change, and it is read as the text of that change. -/
theorem changed (h : Processes dryRun tree w ps xs w')
    (hl : w'.files.entry? l ≠ w.files.entry? l) :
    dryRun = false ∧ ∃ (ys : List Processed) (x : Processed) (zs : List Processed)
      (s : List Char), xs = ys ++ x :: zs ∧ x.outcome = .changed s ∧
      w.files.locate w.folder x.link = .ok l ∧ (∀ z ∈ zs, ¬ z.Changes w.files w.folder l) ∧
      w'.files.entry? l = some (.file (Utf8.encode s)) ∧
      sourceOf x.link (w'.files.read w.folder x.link) = .ok s := by
  obtain rfl : dryRun = false := by
    cases dryRun with
    | false => rfl
    | true => exact absurd (h.entry?_eq (.inl rfl)) hl
  have hchange : ∃ x ∈ xs, x.Changes w.files w.folder l := by
    by_contra hnone
    exact hl (h.entry?_eq (.inr fun x hx hchanges => hnone ⟨x, hx, hchanges⟩))
  obtain ⟨ys, x, zs, rfl, ⟨hchanged, hlocated⟩, hzs⟩ := exists_last_change hchange
  obtain ⟨s, hx⟩ : ∃ s, x.outcome = .changed s := by
    cases hx : x.outcome with
    | changed s => exact ⟨s, rfl⟩
    | _ => simp [hx, Outcome.isChanged] at hchanged
  have hentry := h.entry?_of_last_change hx hlocated hzs
  have hread : w'.files.read w.folder x.link = .ok (Utf8.encode s) :=
    FileSystem.read_eq_ok_iff.2 ⟨l, by rw [← h.sameShape.locate, hlocated], hentry⟩
  refine ⟨rfl, ys, x, zs, s, rfl, hx, hlocated, hzs, hentry, ?_⟩
  rw [hread]
  unfold sourceOf
  simp only [Except.mapError, bind, Except.bind, Utf8.decode_encode]

/-- A link file that does not change is as it was when its processing started, and stays so until a
later change of it. -/
theorem unchanged (h : Processes dryRun tree w ps (ys ++ x :: zs) w')
    (hx : x.outcome.isChanged = false) :
    ∃ before p after u u', ps = before ++ p :: after ∧ Processes dryRun tree w before ys u ∧
      exec (process dryRun tree p) u = (.ok x, u') ∧ u'.files = u.files ∧
      ∀ l, (∀ z ∈ zs, ¬ z.Changes w.files w.folder l) → w'.files.entry? l = u.files.entry? l := by
  obtain ⟨before, p, after, u, u', rfl, hbefore, hstep, hafter⟩ := h.at_outcome
  obtain ⟨-, hfolder, heffect⟩ := step_cases hstep
  have hfiles := heffect.files_eq (.inr hx)
  refine ⟨before, p, after, u, u', rfl, hbefore, hstep, hfiles, fun l hzs => ?_⟩
  rw [hafter.entry?_eq (.inr fun z hz => ?_), hfiles]
  rw [hfiles, hfolder, hbefore.folder, ← hbefore.sameShape.changes]
  exact hzs z hz

end Processes

/-! ## Runs -/

/-- The link files that a packages folder is found to hold. -/
def Packages.found (folder : Path) (w : World) : List Path :=
  match (exec (Packages.discover folder) w).1 with
  | .ok links => links
  | .error _ => []

/-- Some of the link files of a folder were processed, all of them if the run ended with a batch. -/
theorem run_processes (dryRun : Bool) (tree : Node) (folder : Path) (w : World) :
    ∃ links xs v, links <+: Packages.found folder w ∧ Processes dryRun tree w links xs v ∧
      (exec (Batch.run dryRun tree folder) w).2.files = v.files ∧
      ∀ batch, (exec (Batch.run dryRun tree folder) w).1 = .ok batch →
        batch.processed = xs ∧ links = Packages.found folder w := by
  unfold Packages.found
  rcases hrun : exec (Batch.run dryRun tree folder) w with ⟨r, w'⟩
  rcases run_cases hrun with ⟨stop, hdiscover, rfl, rfl⟩ | ⟨links, hdiscover, hlinks⟩
  · exact ⟨[], [], _, List.nil_prefix, .nil _, rfl, by rintro _ ⟨⟩⟩
  rw [hdiscover]
  rcases hlinks with ⟨xs, v, hdone, htold, rfl⟩ | ⟨xs, c, hcrash, rfl⟩
  · refine ⟨links, xs, v, List.prefix_rfl, hdone, htold.files, ?_⟩
    rintro _ ⟨⟩
    exact ⟨rfl, rfl⟩
  · obtain ⟨done, p, rest, v, rfl, hdone, hstep⟩ := hcrash
    obtain ⟨-, -, heffect⟩ := step_cases hstep
    exact ⟨done, xs, v, List.prefix_append _ _, hdone, heffect.files_eq_of_crash, by rintro _ ⟨⟩⟩

/-- A fatal problem after work that only tells, or in what follows that work, finds the files as they
were. -/
theorem files_of_problem_bind {α β : Type} {x : ExceptT Stop (StateM World) α}
    {f : α → ExceptT Stop (StateM World) β} (hx : OnlyTells x)
    (hf : ∀ a w p, (exec (f a) w).1 = .error (.problem p) → (exec (f a) w).2.files = w.files)
    (w : World) (p : Problem) (h : (exec (x >>= f) w).1 = .error (.problem p)) :
    (exec (x >>= f) w).2.files = w.files := by
  have htold := hx w
  rw [exec_bind] at h ⊢
  rcases hexec : exec x w with ⟨e | a, w'⟩ <;> rw [hexec] at htold h
  · exact htold.files
  · exact (hf a w' p h).trans htold.files

/-- A fatal problem of a run comes before any link file is touched. -/
theorem files_of_run_problem (dryRun : Bool) (tree : Node) (folder : Path) (w : World) (p : Problem)
    (h : (exec (Batch.run dryRun tree folder) w).1 = .error (.problem p)) :
    (exec (Batch.run dryRun tree folder) w).2.files = w.files := by
  rcases hrun : exec (Batch.run dryRun tree folder) w with ⟨r, w'⟩
  rw [hrun] at h
  rcases run_cases hrun with ⟨stop, -, -, rfl⟩ | ⟨links, -, ⟨xs, v, -, -, rfl⟩ | ⟨xs, c, -, rfl⟩⟩
  · rfl
  · cases h
  · cases h

theorem files_of_work_problem (o : CommandLine.Options) (w : World) (p : Problem)
    (h : (exec (CommandLine.work o) w).1 = .error (.problem p)) :
    (exec (CommandLine.work o) w).2.files = w.files := by
  unfold CommandLine.work at h ⊢
  cases ho : o.sourcemap with
  | none => rw [ho] at h; cases h
  | some sourcemap =>
    rw [ho] at h
    refine files_of_problem_bind (Node.onlyTells_load sourcemap) (fun tree => ?_) w p h
    refine files_of_problem_bind (onlyTells_lift fun w => .refl w) fun folder => ?_
    exact files_of_problem_bind (Node.asks_canonicalize folder tree).onlyTells fun tree =>
      files_of_run_problem o.dryRun tree o.folder

/-- A fatal problem is told, and the program exits with 1. -/
theorem exec_execute_of_problem (color : Bool) (o : CommandLine.Options) {w w' : World} {p : Problem}
    (h : exec (CommandLine.work o) w = (.error (.problem p), w')) :
    exec (CommandLine.execute color o) w =
      (.ok 1, { w' with remarks := w'.remarks ++ [.plain (CommandLine.fatalLines p)] }) := by
  unfold CommandLine.execute
  rw [exec_bind, exec_lift_run, h]
  rfl

theorem files_of_execute_problem (color : Bool) (o : CommandLine.Options) (w : World) (p : Problem)
    (h : (exec (CommandLine.work o) w).1 = .error (.problem p)) :
    (exec (CommandLine.execute color o) w).1 = .ok 1 ∧
      (exec (CommandLine.execute color o) w).2.files = w.files := by
  have hfiles := files_of_work_problem o w p h
  rw [exec_execute_of_problem color o (Prod.ext h rfl)]
  exact ⟨rfl, hfiles⟩

/-- A run touches only what it reports. Of the link files that were found, some first ones are given
outcomes, all of them if the run ends with a batch, whose outcomes they are. A file differs
afterwards only if it is one of these, the run is not dry and its last change is what it holds and
what is read of it; a link file that fails or is unchanged is as it was when its processing started,
until a later change of it; a dry run changes nothing; and neither does a run that stops at a fatal
problem. -/
theorem run_touches_reported :
    (∀ (dryRun : Bool) (tree : Node) (folder : Path) (w : World),
      ∃ links xs v, links <+: Packages.found folder w ∧ Processes dryRun tree w links xs v ∧
        (exec (Batch.run dryRun tree folder) w).2.files = v.files ∧
        List.Forall₂ (fun p x => w.files.withoutLinks w.folder p = .ok x.link) links xs ∧
        (∀ batch, (exec (Batch.run dryRun tree folder) w).1 = .ok batch →
          batch.processed = xs ∧ links = Packages.found folder w) ∧
        (∀ l, v.files.entry? l ≠ w.files.entry? l →
          dryRun = false ∧ ∃ ys x zs s, xs = ys ++ x :: zs ∧ x.outcome = .changed s ∧
            w.files.locate w.folder x.link = .ok l ∧
            (∀ z ∈ zs, ¬ z.Changes w.files w.folder l) ∧
            v.files.entry? l = some (.file (Utf8.encode s)) ∧
            sourceOf x.link (v.files.read w.folder x.link) = .ok s) ∧
        (∀ ys x zs, xs = ys ++ x :: zs → x.outcome.isChanged = false →
          ∃ before p after u u', links = before ++ p :: after ∧
            Processes dryRun tree w before ys u ∧ exec (process dryRun tree p) u = (.ok x, u') ∧
            u'.files = u.files ∧
            ∀ l, (∀ z ∈ zs, ¬ z.Changes w.files w.folder l) →
              v.files.entry? l = u.files.entry? l) ∧
        (dryRun = true → ∀ l, v.files.entry? l = w.files.entry? l)) ∧
      ∀ (color : Bool) (o : CommandLine.Options) (w : World) (p : Problem),
        (exec (CommandLine.work o) w).1 = .error (.problem p) →
          (exec (CommandLine.execute color o) w).1 = .ok 1 ∧
            (exec (CommandLine.execute color o) w).2.files = w.files := by
  refine ⟨fun dryRun tree folder w => ?_, files_of_execute_problem⟩
  obtain ⟨links, xs, v, hfound, hdone, hfiles, hbatch⟩ := run_processes dryRun tree folder w
  refine ⟨links, xs, v, hfound, hdone, hfiles, hdone.links, hbatch, fun l => hdone.changed, ?_, ?_⟩
  · rintro ys x zs rfl hx
    exact hdone.unchanged hx
  · exact fun dry l => hdone.entry?_eq (.inl dry)

end TypedLinks
