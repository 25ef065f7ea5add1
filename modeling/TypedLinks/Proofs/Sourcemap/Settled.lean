import TypedLinks.Proofs.Sourcemap.Reported

/-!
# Canonical sourcemaps stay as they are

A sourcemap is made canonical as a whole or not at all: one path that does not resolve, wherever it
is listed, is reported in the place of a tree. Otherwise nothing is dropped or moved, every path is
absolute, and, since a canonical path resolves to itself, making the tree canonical once more
changes nothing, from whatever folder paths are read.
-/

namespace TypedLinks.Node

/-! ## Paths that stay -/

section MapPaths

variable {m : Type → Type} [Monad m] [LawfulMonad m] {f : Path → m Path}

theorem mapM_eq_pure {ps : List Path} (h : ∀ p ∈ ps, f p = pure p) : ps.mapM f = pure ps := by
  induction ps with
  | nil => rw [List.mapM_nil]
  | cons p ps ih =>
    obtain ⟨hp, hps⟩ := List.forall_mem_cons.1 h
    rw [List.mapM_cons, hp, ih hps, pure_bind, pure_bind]

mutual

/-- A tree each path of which is replaced by itself stays as it is. -/
theorem mapPaths_eq_pure : ∀ n : Node, (∀ p ∈ n.allPaths, f p = pure p) → n.mapPaths f = pure n
  | mk name className paths children, h => by
    rw [allPaths, List.forall_mem_append] at h
    rw [mapPaths, mapM_eq_pure h.1, pure_bind, mapEachPaths_eq_pure children h.2, pure_bind]

theorem mapEachPaths_eq_pure :
    ∀ ns : List Node, (∀ p ∈ eachPaths ns, f p = pure p) → mapEachPaths f ns = pure ns
  | [], _ => by rw [mapEachPaths]
  | n :: ns, h => by
    rw [eachPaths, List.forall_mem_append] at h
    rw [mapEachPaths, mapPaths_eq_pure n h.1, pure_bind, mapEachPaths_eq_pure ns h.2, pure_bind]

end

end MapPaths

/-! ## Canonical paths that stay -/

section Canonical

variable [Disk Id] {folder : Path} {tree tree' : Node}

/-- What a path resolves to is absolute and resolves to itself; and if it does not resolve, this is
reported. -/
structure Settles (p : Path) : Prop where
  absolute : ∀ q, real p = .ok q → q.isAbsolute
  again : ∀ q, real p = .ok q → real q = .ok q
  told : ∀ why, real p ≠ .error (.unusable why)

theorem settles_of_real {p q : Path} (hp : real p = .ok q) (habsolute : q.isAbsolute)
    (hq : real q = .ok q) : Settles p where
  absolute r hr := by
    cases hp.symm.trans hr
    exact habsolute
  again r hr := by
    cases hp.symm.trans hr
    exact hq
  told why hwhy := by cases hp.symm.trans hwhy

/-- The paths of a canonical sourcemap are the canonical paths of those of the sourcemap, in their
order. -/
theorem paths_of_canonicalize
    (h : (canonicalize folder tree : ExceptT Stop Id Node).run = Except.ok tree') :
    List.Forall₂ (fun p q => real (folder.join p) = .ok q) tree.allPaths tree'.allPaths := by
  obtain ⟨f, hf, hcanonicalize⟩ := canonicalize_eq_mapPaths folder
  rw [hcanonicalize] at h
  have hpaths : (tree.allPaths.mapM f).run = Except.ok tree'.allPaths := by
    rw [← allPaths_mapPaths, ExceptT.run_map, h]
    rfl
  refine rel_of_mapM (fun p q hq => ?_) hpaths
  rw [hf] at hq
  cases hreal : real (folder.join p) with
  | error fault =>
    rw [hreal] at hq
    cases hq
  | ok r =>
    rw [hreal] at hq
    cases hq
    rfl

/-- A sourcemap of absolute paths that resolve to themselves is canonical already. -/
theorem canonicalize_eq_self
    (h : ∀ p ∈ tree.allPaths, p.isAbsolute ∧ real p = .ok p) (folder : Path) :
    (canonicalize folder tree : ExceptT Stop Id Node).run = Except.ok tree := by
  obtain ⟨f, hf, hcanonicalize⟩ := canonicalize_eq_mapPaths folder
  rw [hcanonicalize, mapPaths_eq_pure tree fun p hp => ?_]
  · rfl
  · obtain ⟨habsolute, hreal⟩ := h p hp
    have hjoin : folder.join p = p := by rw [Path.join, if_pos habsolute]
    exact (hf p).trans (by rw [hjoin, hreal]; rfl)

/-- A sourcemap becomes canonical exactly if each of its paths resolves. -/
theorem exists_canonicalize_iff :
    (∃ tree', (canonicalize folder tree : ExceptT Stop Id Node).run = Except.ok tree') ↔
      ∀ p ∈ tree.allPaths, ∃ q, real (folder.join p) = .ok q := by
  constructor
  · rintro ⟨tree', h⟩ p hp
    have hpaths := paths_of_canonicalize h
    obtain ⟨i, hi, rfl⟩ := List.getElem_of_mem hp
    exact ⟨_, hpaths.get hi (hpaths.length_eq ▸ hi)⟩
  · intro h
    cases hrun : (canonicalize folder tree : ExceptT Stop Id Node).run with
    | ok tree' => exact ⟨tree', rfl⟩
    | error stop =>
      obtain ⟨before, p, after, fault, hpaths, -, hp, -⟩ := canonicalize_eq_error_iff.1 hrun
      obtain ⟨q, hq⟩ := h p (hpaths ▸ List.mem_append_right before List.mem_cons_self)
      cases hp.symm.trans hq

/-- If the paths of a sourcemap, read from a folder, settle, then it is reported that it is stale
exactly if one of them does not resolve. Otherwise a tree of the same shape with the same names and
classes takes its place, which has the canonical path of each path in the place of this path; each
path of that tree is absolute, and making it canonical from any folder gives the same tree. -/
theorem canonicalize_settled (h : ∀ p ∈ tree.allPaths, Settles (folder.join p)) :
    ((∃ problem, problem.kind = .staleSourcemap ∧
        (canonicalize folder tree : ExceptT Stop Id Node).run = Except.error (.problem problem)) ↔
      ∃ p ∈ tree.allPaths, ∃ fault, real (folder.join p) = .error fault) ∧
    ((∀ p ∈ tree.allPaths, ∀ fault, real (folder.join p) ≠ .error fault) → ∃ tree',
      (canonicalize folder tree : ExceptT Stop Id Node).run = Except.ok tree' ∧
      tree.Mapped (fun p q => real (folder.join p) = .ok q) tree' ∧
      (∀ q ∈ tree'.allPaths, q.isAbsolute) ∧
      ∀ folder', (canonicalize folder' tree' : ExceptT Stop Id Node).run = Except.ok tree') := by
  constructor
  · constructor
    · rintro ⟨problem, -, hrun⟩
      obtain ⟨before, p, after, fault, hpaths, -, hp, -⟩ := canonicalize_eq_error_iff.1 hrun
      exact ⟨p, hpaths ▸ List.mem_append_right before List.mem_cons_self, fault, hp⟩
    · rintro ⟨p, hp, fault, hfault⟩
      have hreports : Reports .staleSourcemap
          (canonicalize folder tree : ExceptT Stop Id Node).run :=
        reports_canonicalize_iff.2 fun before p after hpaths _ =>
          (h p (hpaths ▸ List.mem_append_right before List.mem_cons_self)).told
      cases hrun : (canonicalize folder tree : ExceptT Stop Id Node).run with
      | ok tree' =>
        obtain ⟨q, hq⟩ := exists_canonicalize_iff.1 ⟨tree', hrun⟩ p hp
        cases hfault.symm.trans hq
      | error stop =>
        rw [hrun] at hreports
        cases stop with
        | problem problem => exact ⟨problem, hreports, rfl⟩
        | crash c => exact hreports.elim
  · intro hresolves
    obtain ⟨tree', hrun⟩ := exists_canonicalize_iff.2 fun p hp => by
      cases hreal : real (folder.join p) with
      | ok q => exact ⟨q, rfl⟩
      | error fault => exact absurd hreal (hresolves p hp fault)
    have hpaths (q : Path) (hq : q ∈ tree'.allPaths) : q.isAbsolute ∧ real q = .ok q := by
      obtain ⟨p, hp, hreal⟩ := (mem_iff_of_forall₂ (paths_of_canonicalize hrun)
        fun p q q' hq hq' => Except.ok.inj (hq.symm.trans hq')).1 hq
      exact ⟨(h p hp).absolute q hreal, (h p hp).again q hreal⟩
    exact ⟨tree', hrun, mapped_of_canonicalize hrun, fun q hq => (hpaths q hq).1,
      canonicalize_eq_self hpaths⟩

end Canonical

/-- The canonical sourcemap of a tree whose paths lead up and through a link is what it becomes
again from every folder. -/
theorem canonicalize_settled_linkedTree :
    letI := linkedWorld.frozen
    ∃ tree', (canonicalize (.absolute ["src"]) linkedTree : ExceptT Stop Id Node).run =
        Except.ok tree' ∧
      linkedTree.Mapped (fun p q => real ((Path.absolute ["src"]).join p) = .ok q) tree' ∧
      (∀ q ∈ tree'.allPaths, q.isAbsolute) ∧
      ∀ folder, (canonicalize folder tree' : ExceptT Stop Id Node).run = Except.ok tree' := by
  let := linkedWorld.frozen
  have hpaths : linkedTree.allPaths = [.ofText "../src", .ofText "../lnk/./pkg.lua"] := rfl
  have hsrc : real ((Path.absolute ["src"]).join (.ofText "../src")) = .ok (.absolute ["src"]) := by
    cbv
  have hpkg : real ((Path.absolute ["src"]).join (.ofText "../lnk/./pkg.lua")) =
      .ok (.absolute ["src", "pkg.lua"]) := by
    cbv
  have hsrc' : real (.absolute ["src"]) = .ok (.absolute ["src"]) := by cbv
  have hpkg' : real (.absolute ["src", "pkg.lua"]) = .ok (.absolute ["src", "pkg.lua"]) := by cbv
  have hsettles : ∀ p ∈ linkedTree.allPaths, Settles ((Path.absolute ["src"]).join p) := by
    rw [hpaths]
    simp [settles_of_real hsrc rfl hsrc', settles_of_real hpkg rfl hpkg']
  refine (canonicalize_settled hsettles).2 ?_
  rw [hpaths]
  simp [hsrc, hpkg]

end TypedLinks.Node
