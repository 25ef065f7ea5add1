import TypedLinks.Proofs.World.Execution
import TypedLinks.Sourcemap.Load

/-!
# Loading a sourcemap writes nothing

A sourcemap is read and made canonical by looking at the disk only.
-/

namespace TypedLinks.Node

open World

/-- A sourcemap is loaded without a change of any file. -/
theorem onlyTells_load (path : Path) : OnlyTells (load path : ExceptT Stop (StateM World) Node) := by
  refine (onlyTells_lift fun w => .refl w).bind fun bytes w => ?_
  obtain ⟨w', hexec, htold⟩ := perform_eq (ofBytes path bytes) w
  change Tells w (((ofBytes path bytes).perform : StateM World (Except Stop Node)) w).2
  rwa [hexec]

section Paths

variable {ε : Type} {f : Path → ExceptT ε (StateM World) Path}

theorem asks_paths (h : ∀ p, Asks (f p)) (ps : List Path) : Asks (ps.mapM f) := by
  induction ps with
  | nil => exact asks_pure _
  | cons p ps ih =>
    rw [List.mapM_cons]
    exact (h p).bind fun _ => ih.bind fun _ => asks_pure _

mutual

theorem asks_mapPaths (h : ∀ p, Asks (f p)) : ∀ n : Node, Asks (n.mapPaths f)
  | mk name className paths children => by
    rw [mapPaths]
    exact (asks_paths h paths).bind fun _ => (asks_mapEachPaths h children).bind fun _ => asks_pure _

theorem asks_mapEachPaths (h : ∀ p, Asks (f p)) : ∀ ns : List Node, Asks (mapEachPaths f ns)
  | [] => by
    rw [mapEachPaths]
    exact asks_pure _
  | n :: ns => by
    rw [mapEachPaths]
    exact (asks_mapPaths h n).bind fun _ => (asks_mapEachPaths h ns).bind fun _ => asks_pure _

end

end Paths

theorem asks_canonical (p : Path) :
    Asks (ExceptT.mk (Disk.canonical p : StateM World (Except DiskFault Path))) :=
  asks_query fun _ _ l h => h.resolveFrom true l p

/-- The paths of a sourcemap are made canonical without a change of any file. -/
theorem asks_canonicalize (folder : Path) (tree : Node) :
    Asks (canonicalize folder tree : ExceptT Stop (StateM World) Node) := by
  refine asks_mapPaths (fun p => (asks_canonical (folder.join p)).lift.bind fun r => ?_) tree
  rcases r with fault | p
  · exact asks_throw _
  · exact asks_pure _

end TypedLinks.Node
