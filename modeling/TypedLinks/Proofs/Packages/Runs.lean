import TypedLinks.Packages.Batch
import TypedLinks.Proofs.Link.Effect
import TypedLinks.Proofs.Packages.Discovery

/-!
# Runs over several link files

Link files are processed one after the other, each in the world that the one before it left
(`Processes`). A batch is such a sequence over all the link files that were found; a crash ends it
after some of them.
-/

namespace TypedLinks

open World Link

/-- Some link files are processed one after the other, and each has an outcome. -/
inductive Processes (dryRun : Bool) (tree : Node) :
    World → List Path → List Processed → World → Prop where
  | nil (w : World) : Processes dryRun tree w [] [] w
  | cons {w w₁ w₂ : World} {p : Path} {x : Processed} {ps : List Path} {xs : List Processed}
      (first : exec (process dryRun tree p) w = (.ok x, w₁))
      (others : Processes dryRun tree w₁ ps xs w₂) : Processes dryRun tree w (p :: ps) (x :: xs) w₂

/-- Work on link files that a crash ends, after some of them were processed. -/
structure Crashes (dryRun : Bool) (tree : Node) (w : World) (links : List Path)
    (xs : List Processed) (c : Crash) (w' : World) : Prop where
  stopped : ∃ done p rest w₁, links = done ++ p :: rest ∧ Processes dryRun tree w done xs w₁ ∧
    exec (process dryRun tree p) w₁ = (.error c, w')

section Step

variable {dryRun : Bool} {tree : Node} {p : Path} {w w' : World} {x : Processed} {c : Crash}

/-! ## One link file -/

/-- What a step is: its result depends on the files only, and its effect is that of its outcome. -/
theorem step_cases {r : Except Crash Processed} (h : exec (process dryRun tree p) w = (r, w')) :
    r = outcomeOf w.files w.folder tree p ∧ w'.folder = w.folder ∧
      Effect dryRun w.files w.folder r w'.files := by
  obtain ⟨w₁, hexec, hfolder, heffect⟩ := exec_process dryRun tree p w
  rw [hexec] at h
  cases h
  exact ⟨rfl, hfolder, heffect⟩

theorem Link.Effect.sameShape {r : Except Crash Processed} {fs fs' : FileSystem}
    {folder : DiskLocation} (h : Effect dryRun fs folder r fs') : fs.SameShape fs' := by
  cases h with
  | kept => exact .refl _
  | written _ write => exact FileSystem.sameShape_write write

theorem Link.Effect.files_eq {fs fs' : FileSystem} {folder : DiskLocation}
    (h : Effect dryRun fs folder (.ok x) fs') (hx : dryRun = true ∨ x.outcome.isChanged = false) :
    fs' = fs := by
  cases h with
  | kept => rfl
  | written wet =>
    rcases hx with rfl | hx
    · contradiction
    · contradiction

/-- The new text of a link file that changes is written, unless the run is dry. -/
theorem Link.Effect.write_eq {fs fs' : FileSystem} {folder : DiskLocation} {s : List Char}
    (h : Effect false fs folder (.ok x) fs') (hx : x.outcome = .changed s) :
    fs.write folder x.link (Utf8.encode s) = .ok fs' := by
  cases h with
  | kept h => exact absurd (h x.link s (by rw [← hx])) (by decide)
  | written _ write =>
    cases hx
    exact write

/-- A link file that changes is read as its new text. -/
theorem read_of_change {s : List Char} (h : exec (process false tree p) w = (.ok x, w'))
    (hx : x.outcome = .changed s) :
    w'.files.read w'.folder x.link = .ok (Utf8.encode s) := by
  obtain ⟨-, hfolder, heffect⟩ := step_cases h
  rw [hfolder]
  exact FileSystem.read_write (heffect.write_eq hx)

theorem Link.Effect.files_eq_of_crash {fs fs' : FileSystem} {folder : DiskLocation}
    (h : Effect dryRun fs folder (.error c) fs') : fs' = fs := by
  cases h
  rfl

/-- The canonical path of a link file that was processed. -/
theorem withoutLinks_of_step (h : exec (process dryRun tree p) w = (.ok x, w')) :
    w.files.withoutLinks w.folder p = .ok x.link :=
  (outcomeOf_eq_ok_iff.1 (step_cases h).1.symm).1

end Step

/-! ## Sequences -/

namespace Processes

variable {dryRun : Bool} {tree : Node} {w w₁ w' : World} {ps qs : List Path}
  {xs ys : List Processed}

theorem append (h : Processes dryRun tree w ps xs w₁) (h' : Processes dryRun tree w₁ qs ys w') :
    Processes dryRun tree w (ps ++ qs) (xs ++ ys) w' := by
  induction h with
  | nil => exact h'
  | cons first _ ih => exact .cons first (ih h')

/-- A sequence is cut where its outcomes are. -/
theorem split (h : Processes dryRun tree w ps (xs ++ ys) w') :
    ∃ ps₁ ps₂ w₁, ps = ps₁ ++ ps₂ ∧ Processes dryRun tree w ps₁ xs w₁ ∧
      Processes dryRun tree w₁ ps₂ ys w' := by
  induction xs generalizing w ps with
  | nil => exact ⟨[], ps, w, rfl, .nil w, h⟩
  | cons x xs ih =>
    cases h with
    | cons first others =>
      obtain ⟨ps₁, ps₂, w₁, rfl, hfirst, hlast⟩ := ih others
      exact ⟨_ :: ps₁, ps₂, w₁, rfl, .cons first hfirst, hlast⟩

/-- A sequence is cut where its link files are. -/
theorem split_links (h : Processes dryRun tree w (ps ++ qs) xs w') :
    ∃ ys zs w₁, xs = ys ++ zs ∧ Processes dryRun tree w ps ys w₁ ∧
      Processes dryRun tree w₁ qs zs w' := by
  induction ps generalizing w xs with
  | nil => exact ⟨[], xs, w, rfl, .nil w, h⟩
  | cons p ps ih =>
    cases h with
    | cons first others =>
      obtain ⟨ys, zs, w₁, rfl, hfirst, hlast⟩ := ih others
      exact ⟨_ :: ys, zs, w₁, rfl, .cons first hfirst, hlast⟩

/-- The outcomes follow from the link files and the world. -/
theorem unique (h : Processes dryRun tree w ps xs w₁) (h' : Processes dryRun tree w ps ys w') :
    xs = ys ∧ w₁ = w' := by
  induction h generalizing ys with
  | nil =>
    cases h'
    exact ⟨rfl, rfl⟩
  | cons first others ih =>
    cases h' with
    | cons first' others' =>
      obtain ⟨hx, rfl⟩ := Prod.mk.inj (first.symm.trans first')
      obtain ⟨rfl, rfl⟩ := ih others'
      exact ⟨by rw [Except.ok.inj hx], rfl⟩

theorem length_eq (h : Processes dryRun tree w ps xs w') : xs.length = ps.length := by
  induction h with
  | nil => rfl
  | cons _ _ ih => rw [List.length_cons, List.length_cons, ih]

theorem folder (h : Processes dryRun tree w ps xs w') : w'.folder = w.folder := by
  induction h with
  | nil => rfl
  | cons first _ ih => exact ih.trans (step_cases first).2.1

theorem sameShape (h : Processes dryRun tree w ps xs w') : w.files.SameShape w'.files := by
  induction h with
  | nil => exact .refl _
  | cons first _ ih => exact (step_cases first).2.2.sameShape.trans ih

/-- Each link file is processed under its canonical path. -/
theorem links (h : Processes dryRun tree w ps xs w') :
    List.Forall₂ (fun p x => w.files.withoutLinks w.folder p = .ok x.link) ps xs := by
  induction h with
  | nil => exact .nil
  | cons first _ ih =>
    obtain ⟨-, hfolder, heffect⟩ := step_cases first
    refine .cons (withoutLinks_of_step first) (ih.imp fun p x hx => ?_)
    rwa [heffect.sameShape.withoutLinks, ← hfolder]

end Processes

/-- Link files that are all processed are not kept from it by a crash. -/
theorem Crashes.not_processes {dryRun : Bool} {tree : Node} {w v w' : World} {links : List Path}
    {xs ys : List Processed} {c : Crash} (h : Crashes dryRun tree w links xs c w') :
    ¬ Processes dryRun tree w links ys v := by
  obtain ⟨done, p, rest, u, rfl, hdone, hstep⟩ := h
  intro hall
  obtain ⟨ys', zs, u', rfl, hdone', hrest⟩ := hall.split_links
  obtain ⟨-, rfl⟩ := hdone.unique hdone'
  cases hrest with
  | cons first _ =>
    rw [hstep] at first
    cases first

/-! ## Batches -/

section Batch

variable {dryRun : Bool} {tree : Node} {w w' : World}

theorem exec_mapM (dryRun : Bool) (tree : Node) (ps : List Path) (w : World) :
    (∃ xs w', exec (ps.mapM (process dryRun tree)) w = (.ok xs, w') ∧
      Processes dryRun tree w ps xs w') ∨
    ∃ xs c w', exec (ps.mapM (process dryRun tree)) w = (.error c, w') ∧
      Crashes dryRun tree w ps xs c w' := by
  induction ps generalizing w with
  | nil => exact .inl ⟨[], w, rfl, .nil w⟩
  | cons p ps ih =>
    rw [List.mapM_cons, exec_bind]
    rcases hfirst : exec (process dryRun tree p) w with ⟨c | x, w₁⟩
    · exact .inr ⟨[], c, w₁, rfl, ⟨[], p, ps, w, rfl, .nil w, hfirst⟩⟩
    dsimp only
    rw [exec_bind]
    rcases ih w₁ with
      ⟨xs, w', hexec, hothers⟩ | ⟨xs, c, w', hexec, ⟨done, q, rest, w₂, rfl, hdone, hcrash⟩⟩
    · rw [hexec]
      exact .inl ⟨x :: xs, w', rfl, .cons hfirst hothers⟩
    · rw [hexec]
      exact .inr ⟨x :: xs, c, w', rfl, ⟨p :: done, q, rest, w₂, rfl, .cons hfirst hdone, hcrash⟩⟩

/-- Several link files are all processed, or a crash ends the work. -/
theorem exec_ofLinks (dryRun : Bool) (tree : Node) (ps : List Path) (w : World) :
    (∃ xs w₁ w', exec (Batch.ofLinks dryRun tree ps) w = (.ok ⟨xs⟩, w') ∧
      Processes dryRun tree w ps xs w₁ ∧ Tells w₁ w') ∨
    ∃ xs c w', exec (Batch.ofLinks dryRun tree ps) w = (.error c, w') ∧
      Crashes dryRun tree w ps xs c w' := by
  have hstart : Batch.ofLinks (m := StateM World) dryRun tree ps =
      ps.mapM (process dryRun tree) >>= fun xs => do
        note .info (Batch.mk xs).summary
        return ⟨xs⟩ := rfl
  rw [hstart]
  rcases exec_mapM dryRun tree ps w with ⟨xs, w₁, hexec, hdone⟩ | ⟨xs, c, w', hexec, hcrash⟩
  · left
    rw [exec_bind_of_ok hexec]
    exact ⟨xs, w₁, _, rfl, hdone, tells_write (.log ⟨.info, (Batch.mk xs).summary⟩) w₁⟩
  · right
    rw [exec_bind_of_error hexec]
    exact ⟨xs, c, w', rfl, hcrash⟩

theorem exec_ofLinks_of_processes {links : List Path} {xs : List Processed} {v : World}
    (h : Processes dryRun tree w links xs v) :
    ∃ w', exec (Batch.ofLinks dryRun tree links) w = (.ok ⟨xs⟩, w') ∧ Tells v w' := by
  rcases exec_ofLinks dryRun tree links w with
    ⟨ys, u, w', hexec, hdone, htold⟩ | ⟨ys, c, w', -, hcrash⟩
  · obtain ⟨rfl, rfl⟩ := h.unique hdone
    exact ⟨w', hexec, htold⟩
  · exact absurd h hcrash.not_processes

/-- How a batch ends: no link files are found, or all of them are processed, or a crash ends it
after some of them. -/
theorem run_cases {folder : Path} {r : Except Stop Batch}
    (h : exec (Batch.run dryRun tree folder) w = (r, w')) :
    (∃ stop, exec (Packages.discover folder) w = (.error stop, w) ∧ r = .error stop ∧ w' = w) ∨
    ∃ links, exec (Packages.discover folder) w = (.ok links, w) ∧
      ((∃ xs w₁, Processes dryRun tree w links xs w₁ ∧ Tells w₁ w' ∧ r = .ok ⟨xs⟩) ∨
        ∃ xs c, Crashes dryRun tree w links xs c w' ∧ r = .error (.crash c)) := by
  rw [Batch.run, exec_bind] at h
  have hstill := (Packages.asks_discover folder).still w
  rcases hdiscover : exec (Packages.discover folder) w with ⟨stop | links, w₀⟩
  all_goals
    rw [hdiscover] at h hstill
    obtain rfl : w₀ = w := hstill
  · cases h
    exact .inl ⟨stop, rfl, rfl, rfl⟩
  right
  refine ⟨links, rfl, ?_⟩
  dsimp only at h
  rw [exec_bind, exec_lift_run] at h
  rcases exec_ofLinks dryRun tree links w₀ with
    ⟨xs, w₁, w₂, hexec, hdone, htold⟩ | ⟨xs, c, w₂, hexec, hcrash⟩
  · rw [hexec] at h
    cases h
    exact .inl ⟨xs, w₁, hdone, htold, rfl⟩
  · rw [hexec] at h
    cases h
    exact .inr ⟨xs, c, hcrash, rfl⟩

/-- A batch ends with the outcomes of the link files that were found, if they are all processed. -/
theorem exec_run_of_processes {folder : Path} {links : List Path} {xs : List Processed} {v : World}
    (hdiscover : exec (Packages.discover folder) w = (.ok links, w))
    (hdone : Processes dryRun tree w links xs v) :
    ∃ w', exec (Batch.run dryRun tree folder) w = (.ok ⟨xs⟩, w') ∧ Tells v w' := by
  rcases hrun : exec (Batch.run dryRun tree folder) w with ⟨r, w'⟩
  refine ⟨w', ?_⟩
  rcases run_cases hrun with ⟨stop, hstop, -, -⟩ | ⟨links', hlinks, hend⟩
  · rw [hdiscover] at hstop
    cases hstop
  rw [hdiscover] at hlinks
  cases hlinks
  rcases hend with ⟨ys, u, hdone', htold, rfl⟩ | ⟨ys, c, hcrash, -⟩
  · obtain ⟨rfl, rfl⟩ := hdone.unique hdone'
    exact ⟨rfl, htold⟩
  · exact absurd hdone hcrash.not_processes

/-- A batch ends with the outcomes of the link files that were found, if the work on them does. -/
theorem exec_run_of_links {folder : Path} {links : List Path} {b : Batch}
    (hdiscover : exec (Packages.discover folder) w = (.ok links, w))
    (h : (exec (Batch.ofLinks dryRun tree links) w).1 = .ok b) :
    ∃ w', exec (Batch.run dryRun tree folder) w = (.ok b, w') := by
  rcases exec_ofLinks dryRun tree links w with ⟨xs, v, w', hexec, hdone, -⟩ | ⟨xs, c, w', hexec, -⟩
  · rw [hexec] at h
    cases h
    obtain ⟨w'', hrun, -⟩ := exec_run_of_processes hdiscover hdone
    exact ⟨w'', hrun⟩
  · rw [hexec] at h
    cases h

end Batch

end TypedLinks
