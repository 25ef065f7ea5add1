import Mathlib
import TypedLinks.CommandLine.Run
import TypedLinks.Proofs.Link.Stops
import TypedLinks.Proofs.Packages.Runs

/-!
# Every link file has an outcome

A run gives an outcome for each link file that was found, in order, and reports each that failed,
unless it stops at one of them: that has a path that cannot be used, or it or its module holds a
string literal that cannot be decoded.
-/

namespace TypedLinks

open World Link

variable {dryRun : Bool} {tree : Node} {folder : Path} {w : World} {links : List Path}

/-- Whether none of some link files stops the run when its turn comes. -/
def NeverStops (dryRun : Bool) (tree : Node) (w : World) (links : List Path) : Prop :=
  ∀ done p rest xs v, links = done ++ p :: rest → Processes dryRun tree w done xs v →
    ¬ Stops v.files v.folder tree p

/-- A link file is processed unless it stops the run. -/
theorem exists_outcome_iff {p : Path} :
    (∃ x w', exec (process dryRun tree p) w = (.ok x, w')) ↔ ¬ Stops w.files w.folder tree p := by
  rw [← outcomeOf_eq_error_iff]
  rcases hstep : exec (process dryRun tree p) w with ⟨c | x, w'⟩
  · obtain ⟨hc, -, -⟩ := step_cases hstep
    simp [← hc]
  · obtain ⟨hx, -, -⟩ := step_cases hstep
    simp [← hx]

theorem neverStops_of_processes {xs : List Processed} {w' : World}
    (h : Processes dryRun tree w links xs w') : NeverStops dryRun tree w links := by
  rintro done p rest ys v rfl hdone
  obtain ⟨ys', zs, v', rfl, hdone', hrest⟩ := h.split_links
  obtain ⟨rfl, rfl⟩ := hdone.unique hdone'
  cases hrest with
  | cons first _ => exact exists_outcome_iff.1 ⟨_, _, first⟩

theorem Crashes.not_neverStops {xs : List Processed} {c : Crash} {w' : World}
    (h : Crashes dryRun tree w links xs c w') : ¬ NeverStops dryRun tree w links := by
  obtain ⟨done, p, rest, v, rfl, hdone, hstep⟩ := h
  intro hnever
  obtain ⟨x, v', hx⟩ := exists_outcome_iff.2 (hnever done p rest xs v rfl hdone)
  rw [hstep] at hx
  cases hx

/-- The report of a batch is made of the problems of the link files that failed. -/
theorem Batch.diagnostics_report (b : Batch) :
    b.report.diagnostics = b.problems.map Problem.diagnostic := by
  have hadd (ps : List Problem) (r : Report) :
      (ps.foldl Report.add r).diagnostics = r.diagnostics ++ ps.map Problem.diagnostic := by
    induction ps generalizing r with
    | nil => exact (List.append_nil _).symm
    | cons p ps ih =>
      rw [List.foldl_cons, ih, Report.add, List.map_cons, List.append_assoc, List.singleton_append]
  exact hadd b.problems {}

theorem Batch.succeeded_iff (b : Batch) :
    b.succeeded = true ↔ ∀ o ∈ b.outcomes, o.problem? = none := by
  rw [Batch.succeeded, List.isEmpty_iff, Batch.problems, List.filterMap_eq_nil_iff]

/-- The status that the program exits with after a batch. -/
theorem execute_of_batch (color : Bool) (o : CommandLine.Options) {batch : Batch}
    (h : (exec (CommandLine.work o) w).1 = .ok batch) :
    (exec (CommandLine.execute color o) w).1 = .ok (if batch.succeeded then 0 else 1) := by
  unfold CommandLine.execute
  rw [exec_bind, exec_lift_run]
  dsimp only
  rw [h]
  dsimp only
  split <;> rfl

/-- A run reports every link file. Where the link files are found, the run ends with a batch exactly
if none of them stops it; and a batch holds one outcome for each of them, in order, its report has
one diagnostic for each problem, in order, and the program exits with 0 exactly if nothing failed. -/
theorem run_reports_every_link (dryRun : Bool) (tree : Node) (folder : Path) (w : World)
    (links : List Path) (h : exec (Packages.discover folder) w = (.ok links, w)) :
    ((∃ batch, (exec (Batch.run dryRun tree folder) w).1 = .ok batch) ↔
      NeverStops dryRun tree w links) ∧
    (∀ batch, (exec (Batch.run dryRun tree folder) w).1 = .ok batch →
      List.Forall₂ (fun p x => w.files.withoutLinks w.folder p = .ok x.link) links batch.processed ∧
        batch.outcomes.length = links.length ∧
        batch.report.diagnostics =
          (batch.outcomes.filterMap Outcome.problem?).map Problem.diagnostic) ∧
    ∀ (color : Bool) (o : CommandLine.Options) (v : World) (batch : Batch),
      (exec (CommandLine.work o) v).1 = .ok batch →
        ((exec (CommandLine.execute color o) v).1 = .ok 0 ↔
          ∀ x ∈ batch.outcomes, x.problem? = none) := by
  rcases hrun : exec (Batch.run dryRun tree folder) w with ⟨r, w'⟩
  have hend : (∃ xs v, Processes dryRun tree w links xs v ∧ r = .ok ⟨xs⟩) ∨
      ∃ xs c, Crashes dryRun tree w links xs c w' ∧ r = .error (.crash c) := by
    rcases run_cases hrun with ⟨stop, hdiscover, -, -⟩ | ⟨links', hdiscover, hlinks⟩
    · rw [h] at hdiscover
      cases hdiscover
    · rw [h] at hdiscover
      cases hdiscover
      exact hlinks.imp_left fun ⟨xs, v, hdone, _, hr⟩ => ⟨xs, v, hdone, hr⟩
  refine ⟨?_, ?_, fun color o v batch hbatch => ?_⟩
  · rcases hend with ⟨xs, v, hdone, rfl⟩ | ⟨xs, c, hcrash, rfl⟩
    · exact ⟨fun _ => neverStops_of_processes hdone, fun _ => ⟨_, rfl⟩⟩
    · exact ⟨fun ⟨_, hr⟩ => (nomatch hr), fun hnever => absurd hnever hcrash.not_neverStops⟩
  · rintro batch rfl
    rcases hend with ⟨xs, v, hdone, heq⟩ | ⟨xs, c, -, heq⟩
    · cases heq
      exact ⟨hdone.links, by rw [Batch.outcomes, List.length_map, hdone.length_eq],
        Batch.diagnostics_report _⟩
    · cases heq
  · rw [execute_of_batch color o hbatch, ← Batch.succeeded_iff]
    cases batch.succeeded <;> simp

/-- A packages folder with two link files: one is no text, and one requires nothing. -/
def twoFailures : World where
  files := ⟨[(["Packages"], .folder), (["Packages", "A.lua"], .file [0xff]),
    (["Packages", "B.lua"], .file (Utf8.encode "return 1".toList))]⟩

theorem run_reports_two_failures :
    NeverStops false (.mk "Root" "Folder" [] []) twoFailures
        [.absolute ["Packages", "A.lua"], .absolute ["Packages", "B.lua"]] ∧
      ∃ batch, (exec (Batch.run false (.mk "Root" "Folder" [] []) (.absolute ["Packages"]))
          twoFailures).1 = .ok batch ∧
        batch.outcomes.length = 2 ∧ batch.report.diagnostics.length = 2 := by
  have hdiscover : exec (Packages.discover (.absolute ["Packages"])) twoFailures =
      (.ok [.absolute ["Packages", "A.lua"], .absolute ["Packages", "B.lua"]], twoFailures) := by
    cbv
  have hrun : (exec (Batch.ofLinks false (.mk "Root" "Folder" [] [])
      [.absolute ["Packages", "A.lua"], .absolute ["Packages", "B.lua"]])
        twoFailures).1.toOption.any (·.problems.length = 2) = true := by
    decide +kernel
  obtain ⟨batch, hb, hproblems⟩ := Luau.exists_ok_of_any hrun
  obtain ⟨w', hbatch⟩ := exec_run_of_links hdiscover hb
  obtain ⟨hnever, hreports, -⟩ := run_reports_every_link false (.mk "Root" "Folder" [] [])
    (.absolute ["Packages"]) twoFailures _ hdiscover
  rw [hbatch] at hnever hreports ⊢
  obtain ⟨-, hlength, hreport⟩ := hreports batch rfl
  refine ⟨hnever.1 ⟨batch, rfl⟩, batch, rfl, hlength, ?_⟩
  rw [hreport, List.length_map]
  exact of_decide_eq_true hproblems

end TypedLinks
