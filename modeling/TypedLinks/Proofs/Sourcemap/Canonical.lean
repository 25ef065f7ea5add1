import Mathlib
import TypedLinks.Proofs.Sourcemap.Owner
import TypedLinks.Proofs.Sourcemap.Paths
import TypedLinks.Proofs.World.Execution
import TypedLinks.Sourcemap.Load
import TypedLinks.Sourcemap.Resolution

/-!
# Canonical sourcemaps

A sourcemap with canonical paths has the shape and the names of the sourcemap, and each of its paths
is the canonical path of the one in its place. So a file is found in it under its canonical path if
the sourcemap lists the file under any of its paths, and it is found at the first instance that does.
-/

namespace TypedLinks

namespace Node

/-! ## The shape of a tree -/

/-- Two trees of one shape with the same names and classes, whose paths are related one by one. -/
inductive Mapped (R : Path → Path → Prop) : Node → Node → Prop where
  | mk {name className : Text} {ps ps' : List Path} {ns ns' : List Node}
      (paths : List.Forall₂ R ps ps') (children : List.Forall₂ (Mapped R) ns ns') :
      Mapped R (.mk name className ps ns) (.mk name className ps' ns')

namespace Mapped

variable {R : Path → Path → Prop} {n n' : Node}

theorem name_eq (h : Mapped R n n') : n'.name = n.name := by
  cases h
  rfl

theorem paths_rel (h : Mapped R n n') : List.Forall₂ R n.paths n'.paths := by
  cases h with
  | mk paths _ => exact paths

theorem children_rel (h : Mapped R n n') : List.Forall₂ (Mapped R) n.children n'.children := by
  cases h with
  | mk _ children => exact children

end Mapped

section MapPaths

variable {ε : Type} {f : Path → ExceptT ε Id Path} {R : Path → Path → Prop}

theorem rel_of_mapM (hf : ∀ p q, (f p).run = Except.ok q → R p q) {ps ps' : List Path}
    (h : (ps.mapM f).run = Except.ok ps') : List.Forall₂ R ps ps' := by
  induction ps generalizing ps' with
  | nil =>
    rw [List.mapM_nil] at h
    cases h
    exact .nil
  | cons p ps ih =>
    rw [List.mapM_cons] at h
    obtain ⟨q, hq, h⟩ := run_bind_eq_ok.1 h
    obtain ⟨qs, hqs, h⟩ := run_bind_eq_ok.1 h
    cases h
    exact .cons (hf p q hq) (ih hqs)

mutual

/-- A tree with other paths in the places of its own is of the same shape. -/
theorem mapped_of_mapPaths (hf : ∀ p q, (f p).run = Except.ok q → R p q) :
    ∀ {n n' : Node}, (n.mapPaths f).run = Except.ok n' → n.Mapped R n'
  | mk name className paths children, n', h => by
    rw [mapPaths] at h
    obtain ⟨paths', hpaths, h⟩ := run_bind_eq_ok.1 h
    obtain ⟨children', hchildren, h⟩ := run_bind_eq_ok.1 h
    cases h
    exact .mk (rel_of_mapM hf hpaths) (mapped_of_mapEachPaths hf hchildren)

theorem mapped_of_mapEachPaths (hf : ∀ p q, (f p).run = Except.ok q → R p q) :
    ∀ {ns ns' : List Node}, (mapEachPaths f ns).run = Except.ok ns' →
      List.Forall₂ (Mapped R) ns ns'
  | [], ns', h => by
    rw [mapEachPaths] at h
    cases h
    exact .nil
  | n :: ns, ns', h => by
    rw [mapEachPaths] at h
    obtain ⟨n', hn, h⟩ := run_bind_eq_ok.1 h
    obtain ⟨ns', hns, h⟩ := run_bind_eq_ok.1 h
    cases h
    exact .cons (mapped_of_mapPaths hf hn) (mapped_of_mapEachPaths hf hns)

end

end MapPaths

end Node

/-! ## Chains of the same shape -/

namespace Chain

variable {R : Path → Path → Prop} {c c' : Chain}

/-- Chains with the same names that end at trees of one shape. -/
structure Mapped (R : Path → Path → Prop) (c c' : Chain) : Prop where
  node : c.node.Mapped R c'.node
  names : c'.nodes.map Node.name = c.nodes.map Node.name

theorem Mapped.down {n n' : Node} (h : Mapped R c c') (hn : n.Mapped R n') :
    Mapped R (c.down n) (c'.down n') := by
  refine ⟨hn, ?_⟩
  rw [nodes_down, nodes_down, List.map_append, List.map_append, h.names, List.map_singleton,
    List.map_singleton, hn.name_eq]

theorem rel_getElem? {α β : Type} {S : α → β → Prop} {as : List α} {bs : List β}
    (h : List.Forall₂ S as bs) (i : Nat) : Option.Rel S as[i]? bs[i]? := by
  induction h generalizing i with
  | nil => exact .none
  | cons hab _ ih =>
    cases i with
    | zero => exact .some hab
    | succ i => exact ih i

/-- Positions lead somewhere in both trees or in neither. -/
theorem Mapped.follow? (h : Mapped R c c') (place : List Nat) :
    Option.Rel (Mapped R) (c.follow? place) (c'.follow? place) := by
  induction place generalizing c c' with
  | nil => exact .some h
  | cons i is ih =>
    have hchild := rel_getElem? h.node.children_rel i
    rw [Chain.follow?, Chain.follow?]
    generalize c.node.children[i]? = n at hchild
    generalize c'.node.children[i]? = n' at hchild
    cases hchild with
    | none => exact .none
    | some hn => exact ih (h.down hn)

end Chain

namespace Node

section Chains

variable {R : Path → Path → Prop} {tree tree' : Node} {place : List Nat} {c c' : Chain}

theorem Mapped.chainAt? (h : tree.Mapped R tree') (place : List Nat) :
    Option.Rel (Chain.Mapped R) (tree.chainAt? place) (tree'.chainAt? place) := by
  have hroot : Chain.Mapped R ⟨tree, []⟩ ⟨tree', []⟩ :=
    ⟨h, congrArg (fun name => [name]) h.name_eq⟩
  exact hroot.follow? place

theorem Mapped.chainAt?_left (h : tree.Mapped R tree') (hc : tree.chainAt? place = some c) :
    ∃ c', tree'.chainAt? place = some c' ∧ c.Mapped R c' := by
  have hrel := h.chainAt? place
  rw [hc] at hrel
  generalize tree'.chainAt? place = o at hrel
  cases hrel with
  | some hc' => exact ⟨_, rfl, hc'⟩

theorem Mapped.chainAt?_right (h : tree.Mapped R tree') (hc : tree'.chainAt? place = some c') :
    ∃ c, tree.chainAt? place = some c ∧ c.Mapped R c' := by
  have hrel := h.chainAt? place
  rw [hc] at hrel
  generalize tree.chainAt? place = o at hrel
  cases hrel with
  | some hc => exact ⟨_, rfl, hc⟩

end Chains

end Node

/-! ## The disk of a world -/

namespace World

/-- The disk of a world, which answers as it does at the moment. -/
@[reducible]
def frozen (w : World) : Disk Id where
  workingFolder := .absolute w.folder
  canonical p := w.files.canonical w.folder p
  withoutLinks p := w.files.withoutLinks w.folder p
  read p := w.files.read w.folder p
  write p bytes := (w.files.write w.folder p bytes).map fun _ => ()
  isFile p := w.files.isFile w.folder p
  isFolder p := w.files.isFolder w.folder p
  names p := w.files.names w.folder p

section MapPaths

variable {ε : Type} {f : Path → ExceptT ε (StateM World) Path} {g : Path → ExceptT ε Id Path}
  {w : World}

theorem exec_bind_eq_run {α β : Type} {x : ExceptT ε (StateM World) α} {y : ExceptT ε Id α}
    {k : α → ExceptT ε (StateM World) β} {l : α → ExceptT ε Id β} (hx : exec x w = (y.run, w))
    (hk : ∀ a, exec (k a) w = ((l a).run, w)) : exec (x >>= k) w = ((y >>= l).run, w) := by
  change _ = ((ExceptT.bindCont l y.run : Id (Except ε β)), w)
  rw [exec_bind, hx]
  cases y.run with
  | error e => rfl
  | ok a => exact hk a

theorem exec_mapM (h : ∀ p, exec (f p) w = ((g p).run, w)) (ps : List Path) :
    exec (ps.mapM f) w = ((ps.mapM g).run, w) := by
  induction ps with
  | nil => rfl
  | cons p ps ih =>
    rw [List.mapM_cons, List.mapM_cons]
    exact exec_bind_eq_run (h p) fun _ => exec_bind_eq_run ih fun _ => rfl

mutual

theorem exec_mapPaths (h : ∀ p, exec (f p) w = ((g p).run, w)) :
    ∀ n : Node, exec (n.mapPaths f) w = ((n.mapPaths g).run, w)
  | .mk name className paths children => by
    rw [Node.mapPaths, Node.mapPaths]
    exact exec_bind_eq_run (exec_mapM h paths) fun _ =>
      exec_bind_eq_run (exec_mapEachPaths h children) fun _ => rfl

theorem exec_mapEachPaths (h : ∀ p, exec (f p) w = ((g p).run, w)) :
    ∀ ns : List Node, exec (Node.mapEachPaths f ns) w = ((Node.mapEachPaths g ns).run, w)
  | [] => by
    rw [Node.mapEachPaths, Node.mapEachPaths]
    rfl
  | n :: ns => by
    rw [Node.mapEachPaths, Node.mapEachPaths]
    exact exec_bind_eq_run (exec_mapPaths h n) fun _ =>
      exec_bind_eq_run (exec_mapEachPaths h ns) fun _ => rfl

end

end MapPaths

/-- In a world a sourcemap becomes what it becomes on the disk of the world. -/
theorem exec_canonicalize (w : World) (folder : Path) (tree : Node) :
    exec (Node.canonicalize folder tree : ExceptT Stop (StateM World) Node) w =
      ((@Node.canonicalize Id _ w.frozen folder tree).run, w) := by
  refine exec_mapPaths (fun p => ?_) tree
  refine exec_bind_eq_run rfl fun r => ?_
  cases r with
  | error fault => rfl
  | ok q => rfl

end World

namespace Node

/-! ## Files under any of their paths -/

theorem mem_iff_of_forall₂ {α β : Type} {S : α → β → Prop} {as : List α} {bs : List β}
    (h : List.Forall₂ S as bs) (hS : ∀ a b b', S a b → S a b' → b = b') {b : β} :
    b ∈ bs ↔ ∃ a ∈ as, S a b := by
  induction h with
  | nil => simp
  | @cons a b' as bs hab _ ih =>
    have hhead : b = b' ↔ S a b := ⟨fun h => h ▸ hab, fun h => hS a b b' h hab⟩
    rw [List.mem_cons, ih, hhead]
    simp

section Canonical

variable [Disk Id] {folder file p : Path} {tree tree' : Node}

/-- The canonical path of something on a disk that does not change. -/
def real (p : Path) : Except DiskFault Path := Id.run (Disk.canonical p)

/-- An instance lists a file under one of its paths, which is read from a folder. -/
def Lists (folder p : Path) (n : Node) : Prop := ∃ q ∈ n.paths, real (folder.join q) = real p

/-- The paths of a canonical sourcemap are the canonical paths of those of the sourcemap. -/
theorem mapped_of_canonicalize
    (h : (canonicalize folder tree : ExceptT Stop Id Node).run = Except.ok tree') :
    tree.Mapped (fun q q' => real (folder.join q) = .ok q') tree' := by
  refine mapped_of_mapPaths (fun q q' hq => ?_) h
  obtain ⟨r, hr, hq⟩ := run_bind_eq_ok.1 hq
  cases hr
  split at hq
  · rename_i r hcanonical
    cases hq
    exact hcanonical
  · cases hq

/-- A file that a sourcemap lists under any of its paths is found in the canonical sourcemap under
its canonical path, which a link file is processed under. The chain that is found goes from the root
along child links, through instances with the names that they have in the sourcemap, and it ends at
the place of the first instance of the sourcemap that lists the file. -/
theorem listed_file_found (hexists : real p = .ok file)
    (hlenient : Id.run (Disk.withoutLinks p) = real p)
    (hcanonical : (canonicalize folder tree : ExceptT Stop Id Node).run = Except.ok tree')
    (hlisted : ∃ place c, tree.chainAt? place = some c ∧ c.node.Lists folder p) :
    ∃ link, Id.run (Disk.withoutLinks p) = Except.ok link ∧
      ∃ place c c', tree.chainAt? place = some c ∧ tree'.chainAt? place = some c' ∧
        Resolution.anchor tree' link Resolution.scriptAnchor = .ok c' ∧
        c'.IsIn tree' ∧ c'.nodes.map name = c.nodes.map name ∧ c.node.Lists folder p ∧
        ∀ place' < place, ∀ d, tree.chainAt? place' = some d → ¬d.node.Lists folder p := by
  have hmapped := mapped_of_canonicalize hcanonical
  have hlists {n n' : Node} (h : n.Mapped (fun q q' => real (folder.join q) = .ok q') n') :
      file ∈ n'.paths ↔ n.Lists folder p := by
    rw [mem_iff_of_forall₂ h.paths_rel fun q a b ha hb => Except.ok.inj (ha.symm.trans hb), Lists,
      hexists]
  refine ⟨file, hlenient.trans hexists, ?_⟩
  cases howner : tree'.owner? file with
  | none =>
    obtain ⟨place, c, hc, hlisted⟩ := hlisted
    obtain ⟨c', hc', hsame⟩ := hmapped.chainAt?_left hc
    exact absurd ((hlists hsame.node).2 hlisted) (owner?_eq_none_iff.1 howner place c' hc')
  | some c' =>
    obtain ⟨place, hc', hfile, hfirst⟩ := first_of_owner? howner
    obtain ⟨c, hc, hsame⟩ := hmapped.chainAt?_right hc'
    refine ⟨place, c, c', hc, hc', ?_, isIn_of_chainAt? hc', hsame.names,
      (hlists hsame.node).1 hfile, fun place' hlt d hd hlisted => ?_⟩
    · rw [Resolution.anchor, if_pos rfl, howner]
    · obtain ⟨d', hd', hsame'⟩ := hmapped.chainAt?_left hd
      exact hfirst place' hlt d' hd' ((hlists hsame'.node).2 hlisted)

end Canonical

/-! ### A file behind a link -/

/-- A folder with a link file, and a link to the folder. -/
def linkedWorld : World where
  files := ⟨[(["src"], .folder), (["src", "pkg.lua"], .file []), (["lnk"], .link "src")]⟩
  folder := ["src"]

/-- A sourcemap whose root lists the link file at its second child, through the link. -/
def linkedTree : Node :=
  .mk "game" "DataModel" [] [.mk "src" "Folder" [.ofText "../src"] [],
    .mk "pkg" "ModuleScript" [.ofText "../lnk/./pkg.lua"] []]

/-- The sourcemap with canonical paths. -/
def linkedCanonical : Node :=
  .mk "game" "DataModel" [] [.mk "src" "Folder" [.absolute ["src"]] [],
    .mk "pkg" "ModuleScript" [.absolute ["src", "pkg.lua"]] []]

/-- The link file under yet another path is found at the second child. -/
theorem linkedTree_found :
    letI := linkedWorld.frozen
    let p : Path := .ofText "/src/../lnk/pkg.lua"
    ∃ link, Id.run (Disk.withoutLinks p) = Except.ok link ∧
      ∃ place c c', linkedTree.chainAt? place = some c ∧ linkedCanonical.chainAt? place = some c' ∧
        Resolution.anchor linkedCanonical link Resolution.scriptAnchor = .ok c' ∧
        c'.IsIn linkedCanonical ∧ c'.nodes.map name = c.nodes.map name ∧
        c.node.Lists (.absolute ["src"]) p ∧
        ∀ place' < place, ∀ d, linkedTree.chainAt? place' = some d →
          ¬d.node.Lists (.absolute ["src"]) p := by
  let := linkedWorld.frozen
  have hreal : real (.ofText "/src/../lnk/pkg.lua") = .ok (.absolute ["src", "pkg.lua"]) := by cbv
  have hlenient : Id.run (Disk.withoutLinks (.ofText "/src/../lnk/pkg.lua")) =
      Except.ok (Path.absolute ["src", "pkg.lua"]) := by cbv
  have hcanonical : (canonicalize (.absolute ["src"]) linkedTree : ExceptT Stop Id Node).run =
      Except.ok linkedCanonical := by cbv
  refine listed_file_found hreal (hlenient.trans hreal.symm) hcanonical
    ⟨[1], ⟨.mk "pkg" "ModuleScript" [.ofText "../lnk/./pkg.lua"] [], [linkedTree]⟩, rfl,
      .ofText "../lnk/./pkg.lua", List.mem_singleton.2 rfl, ?_⟩
  cbv

end Node

end TypedLinks
