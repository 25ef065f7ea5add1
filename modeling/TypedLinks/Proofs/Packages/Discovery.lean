import TypedLinks.Packages.Discover
import TypedLinks.Proofs.World.Execution

/-!
# Discovering link files

The link files of a packages folder are found by asking for files and folders only: nothing is
changed, and what was written into files does not matter.
-/

namespace TypedLinks.Packages

open World

variable {folder index : Path} {names : List Text}

theorem asks_isFile (p : Path) :
    Asks (ExceptT.mk (Disk.isFile p : StateM World (Except DiskFault Bool))) :=
  asks_query fun _ _ l h => h.isFile l p

theorem asks_isFolder (p : Path) :
    Asks (ExceptT.mk (Disk.isFolder p : StateM World (Except DiskFault Bool))) :=
  asks_query fun _ _ l h => h.isFolder l p

theorem asks_names (p : Path) :
    Asks (ExceptT.mk (Disk.names p : StateM World (Except DiskFault (List Text)))) :=
  asks_query fun _ _ l h => h.names l p

theorem asks_keep {test : Text → ExceptT DiskFault (StateM World) Bool}
    (h : ∀ name, Asks (test name)) (names : List Text) : Asks (keep test names) := by
  induction names with
  | nil => exact asks_pure _
  | cons name names ih =>
    exact (h name).bind fun kept => ih.bind fun others => asks_pure _

theorem asks_linksIn (folder : Path) :
    Asks (linksIn folder : ExceptT DiskFault (StateM World) (List Path)) :=
  (asks_names folder).bind fun _ =>
    (asks_keep (fun name => asks_isFile (folder.child name)) _).bind fun _ => asks_pure _

theorem asks_linksInFolders (index : Path) (names : List Text) :
    Asks (linksInFolders index names : ExceptT DiskFault (StateM World) (List Path)) := by
  induction names with
  | nil => exact asks_pure _
  | cons name names ih =>
    refine (asks_isFolder (index.child name)).bind fun isFolder => ?_
    cases isFolder with
    | true => exact (asks_linksIn _).bind fun _ => ih.bind fun _ => asks_pure _
    | false => exact ih.bind fun _ => asks_pure _

theorem asks_linksInIndex (index : Path) :
    Asks (linksInIndex index : ExceptT DiskFault (StateM World) (List Path)) := by
  refine (asks_isFolder index).bind fun isFolder => ?_
  cases isFolder with
  | true => exact (asks_names index).bind fun _ => asks_linksInFolders index _
  | false => exact asks_pure _

/-- Discovery leaves the world as it is, and finds the same in every world of the same shape. -/
theorem asks_discover (folder : Path) :
    Asks (discover folder : ExceptT Stop (StateM World) (List Path)) := by
  refine (asks_isFolder folder).lift.bind fun isFolder => ?_
  rcases isFolder with fault | _ | _
  · exact asks_throw _
  · exact asks_throw _
  · refine Asks.bind (Asks.lift ((asks_linksIn folder).bind fun own =>
      (asks_linksInIndex (folder.child indexName)).bind fun indexed => asks_pure (own ++ indexed))) ?_
    rintro (fault | links)
    · exact asks_throw _
    · exact asks_pure _

end TypedLinks.Packages
