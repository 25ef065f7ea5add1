import TypedLinks.Sourcemap.Node

/-!
# The paths of a sourcemap

The paths of a tree in the order in which they are replaced. A tree has other paths put in the
places of its own exactly as the list of its paths has.
-/

namespace TypedLinks.Node

mutual

/-- The paths of a tree: those of an instance, and then those of its children in order. -/
def allPaths : Node → List Path
  | mk _ _ paths children => paths ++ eachPaths children

/-- The paths of some trees. -/
def eachPaths : List Node → List Path
  | [] => []
  | n :: ns => n.allPaths ++ eachPaths ns

end

theorem eachPaths_eq_flatMap (ns : List Node) : eachPaths ns = ns.flatMap allPaths := by
  induction ns with
  | nil => rw [eachPaths, List.flatMap_nil]
  | cons n ns ih => rw [eachPaths, List.flatMap_cons, ih]

theorem paths_subset_allPaths (n : Node) : n.paths ⊆ n.allPaths := by
  cases n
  rw [allPaths]
  exact List.subset_append_left _ _

/-- The paths of a child are among those of the instance. -/
theorem allPaths_subset_of_mem {child n : Node} (h : child ∈ n.children) :
    child.allPaths ⊆ n.allPaths := by
  cases n
  rw [allPaths, eachPaths_eq_flatMap]
  exact fun p hp => List.mem_append_right _ (List.mem_flatMap.2 ⟨child, h, hp⟩)

section

variable {m : Type → Type} [Monad m] [LawfulMonad m] {f : Path → m Path}

mutual

/-- The paths of a tree with other paths are the other paths. -/
theorem allPaths_mapPaths : ∀ n : Node, allPaths <$> n.mapPaths f = n.allPaths.mapM f
  | mk name className paths children => by
    rw [mapPaths, allPaths, List.mapM_append, ← eachPaths_mapEachPaths children]
    simp only [map_bind, map_pure, bind_map_left, allPaths]

theorem eachPaths_mapEachPaths :
    ∀ ns : List Node, eachPaths <$> mapEachPaths f ns = (eachPaths ns).mapM f
  | [] => by
    rw [mapEachPaths, eachPaths, List.mapM_nil, map_pure, eachPaths]
  | n :: ns => by
    rw [mapEachPaths, eachPaths, List.mapM_append, ← allPaths_mapPaths n,
      ← eachPaths_mapEachPaths ns]
    simp only [map_bind, map_pure, bind_map_left, eachPaths]

end

end

/-! ## Failures -/

section

variable {ε : Type} {f : Path → ExceptT ε Id Path} {e : ε}

section Bind

variable {α β : Type} {x : ExceptT ε Id α} {g : α → ExceptT ε Id β}

theorem run_bind_eq_ok {b : β} :
    (x >>= g).run = Except.ok b ↔ ∃ a, x.run = Except.ok a ∧ (g a).run = Except.ok b := by
  change (ExceptT.bindCont g x.run : Id (Except ε β)) = _ ↔ _
  rcases x.run with e | a
  · constructor
    · intro h
      cases h
    · rintro ⟨a, h, -⟩
      cases h
  · constructor
    · exact fun h => ⟨a, rfl, h⟩
    · rintro ⟨a', h, hb⟩
      cases h
      exact hb

theorem run_bind_eq_error :
    (x >>= g).run = Except.error e ↔
      x.run = Except.error e ∨ ∃ a, x.run = Except.ok a ∧ (g a).run = Except.error e := by
  change (ExceptT.bindCont g x.run : Id (Except ε β)) = _ ↔ _
  rcases x.run with e' | a
  · constructor
    · intro h
      cases h
      exact .inl rfl
    · rintro (h | ⟨a, h, -⟩) <;> cases h
      rfl
  · constructor
    · exact fun h => .inr ⟨a, rfl, h⟩
    · rintro (h | ⟨a', h, he⟩) <;> cases h
      exact he

end Bind

/-- Work on some paths fails as the first of them does for which it fails. -/
theorem run_mapM_eq_error_iff {ps : List Path} :
    (ps.mapM f).run = Except.error e ↔ ∃ before p after, ps = before ++ p :: after ∧
      (∀ q ∈ before, ∃ r, (f q).run = Except.ok r) ∧ (f p).run = Except.error e := by
  induction ps with
  | nil =>
    rw [List.mapM_nil]
    constructor
    · intro h
      cases h
    · rintro ⟨before, p, after, h, -⟩
      simp at h
  | cons p ps ih =>
    rw [List.mapM_cons, run_bind_eq_error]
    constructor
    · rintro (h | ⟨r, hp, h⟩)
      · exact ⟨[], p, ps, rfl, List.forall_mem_nil _, h⟩
      · rcases run_bind_eq_error.1 h with h | ⟨rs, -, h⟩
        · obtain ⟨before, q, after, rfl, hbefore, h⟩ := ih.1 h
          exact ⟨p :: before, q, after, rfl, List.forall_mem_cons.2 ⟨⟨r, hp⟩, hbefore⟩, h⟩
        · cases h
    · rintro ⟨before, q, after, heq, hbefore, h⟩
      cases before with
      | nil =>
        cases heq
        exact .inl h
      | cons p' before =>
        cases heq
        obtain ⟨⟨r, hp⟩, hbefore⟩ := List.forall_mem_cons.1 hbefore
        exact .inr ⟨r, hp, run_bind_eq_error.2 (.inl (ih.2 ⟨before, q, after, rfl, hbefore, h⟩))⟩

/-- Work on the paths of a tree fails as the first of them does for which it fails. -/
theorem run_mapPaths_eq_error_iff {n : Node} :
    (n.mapPaths f).run = Except.error e ↔ ∃ before p after, n.allPaths = before ++ p :: after ∧
      (∀ q ∈ before, ∃ r, (f q).run = Except.ok r) ∧ (f p).run = Except.error e := by
  rw [← run_mapM_eq_error_iff, ← allPaths_mapPaths, ← bind_pure_comp, run_bind_eq_error]
  constructor
  · exact .inl
  · rintro (h | ⟨n', -, h⟩)
    · exact h
    · cases h

end

end TypedLinks.Node
