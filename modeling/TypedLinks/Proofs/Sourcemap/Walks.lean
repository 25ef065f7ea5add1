import TypedLinks.Proofs.Sourcemap.Paths
import TypedLinks.Proofs.Sourcemap.Search
import TypedLinks.Sourcemap.Resolution

/-!
# Walking require paths

The walk along a require path starts at the owner of a file or at the root, and each further name
takes it to the place above or to the first child of that name. At any time the chain is an upper
part of the chain that the walk started with, continued by first children only. So the walk stays in
the tree, and a step to a child with the step up behind it leaves no trace.

The owner of a file is reached from the root by the names of its chain exactly if each instance of
the chain is the first child of its name and none has the name of the step up. Then, and only then,
paths from the file and paths from the root agree.
-/

namespace TypedLinks

open Resolution

/-! ## First children -/

namespace Node

/-- An instance is the first child of its name. -/
def IsFirstChild (child n : Node) : Prop :=
  ∃ before after, n.children = before ++ child :: after ∧ ∀ m ∈ before, m.name ≠ child.name

/-- A name leads from an instance to a child. The name of the step up leads to none. -/
structure Enters (n child : Node) : Prop where
  first : child.IsFirstChild n
  named : child.name ≠ parentStep

variable {n child : Node} {name : Text}

theorem IsFirstChild.mem (h : child.IsFirstChild n) : child ∈ n.children := by
  obtain ⟨before, after, hchildren, -⟩ := h
  rw [hchildren]
  exact List.mem_append_right before List.mem_cons_self

theorem child?_eq_some_iff :
    n.child? name = some child ↔ child.name = name ∧ child.IsFirstChild n := by
  rw [child?, List.find?_eq_some_iff_append, decide_eq_true_iff]
  refine and_congr_right fun hname => ?_
  subst hname
  simp [IsFirstChild]

theorem child?_eq_none_iff : n.child? name = none ↔ ∀ m ∈ n.children, m.name ≠ name := by
  simp [child?]

end Node

/-! ## Steps -/

namespace Chain

variable {c d start : Chain} {tree child : Node}

theorem nodes_eq (c : Chain) : c.nodes = c.ancestors.reverse ++ [c.node] := rfl

theorem up?_eq_some_iff : c.up? = some d ↔ c = d.down c.node := by
  obtain ⟨n, above⟩ := c
  obtain ⟨m, above'⟩ := d
  cases above <;> simp [up?, down]

theorem up?_eq_none_iff (h : c.IsIn tree) : c.up? = none ↔ c.nodes = [tree] := by
  obtain ⟨n, above⟩ := c
  cases above with
  | nil =>
    obtain rfl : n = tree := Option.some.inj h.1
    exact iff_of_true rfl rfl
  | cons parent above =>
    refine iff_of_false (Option.some_ne_none _) fun hnodes => ?_
    have hlength := congrArg List.length hnodes
    simp [nodes_eq] at hlength

/-- A chain is an upper part of another one, continued by names that lead to children. -/
def Follows (start c : Chain) : Prop :=
  ∃ kept n entered, kept ++ [n] <+: start.nodes ∧ c.nodes = kept ++ n :: entered ∧
    (n :: entered).IsChain Node.Enters

theorem Follows.refl (c : Chain) : c.Follows c :=
  ⟨c.ancestors.reverse, c.node, [], List.prefix_rfl, rfl, List.isChain_singleton c.node⟩

theorem Follows.down (h : start.Follows c) (hchild : c.node.Enters child) :
    start.Follows (c.down child) := by
  obtain ⟨kept, n, entered, hkept, hnodes, hentered⟩ := h
  refine ⟨kept, n, entered ++ [child], hkept, by simp [nodes_down, hnodes], ?_⟩
  rw [← List.cons_append]
  refine hentered.append (List.isChain_singleton child) fun m hm m' hm' => ?_
  have hlast := congrArg List.getLast? hnodes
  rw [nodes_eq, List.getLast?_concat, List.getLast?_append_of_ne_nil _ (List.cons_ne_nil n entered)]
    at hlast
  rw [← hlast] at hm
  obtain rfl := Option.some.inj hm
  obtain rfl := Option.some.inj hm'
  exact hchild

/-- A step up takes away what was entered last, or else the lowest instance that was kept. -/
theorem Follows.up (h : start.Follows (d.down child)) : start.Follows d := by
  obtain ⟨kept, n, entered, hkept, hnodes, hentered⟩ := h
  rw [nodes_down] at hnodes
  rcases List.eq_nil_or_concat entered with rfl | ⟨others, last, rfl⟩
  -- Nothing was entered: what is left is itself an upper part of the first chain.
  · obtain ⟨rfl, -⟩ := List.append_inj' hnodes rfl
    exact ⟨d.ancestors.reverse, d.node, [], (List.prefix_append _ _).trans hkept, rfl,
      List.isChain_singleton d.node⟩
  · rw [List.concat_eq_append, ← List.cons_append, ← List.append_assoc] at hnodes
    obtain ⟨hd, -⟩ := List.append_inj' hnodes rfl
    rw [List.concat_eq_append, ← List.cons_append] at hentered
    exact ⟨kept, n, others, hkept, hd, hentered.left_of_append⟩

theorem IsIn.up (h : (d.down child).IsIn tree) : d.IsIn tree := by
  obtain ⟨hhead, hchain⟩ := h
  rw [nodes_down] at hhead hchain
  refine ⟨?_, hchain.left_of_append⟩
  rwa [List.head?_append_of_ne_nil _ (by simp [nodes_eq])] at hhead

/-- The paths of an instance of a tree are among those of the tree. -/
theorem IsIn.allPaths_subset (h : c.IsIn tree) : c.node.allPaths ⊆ tree.allPaths := by
  obtain ⟨node, ancestors⟩ := c
  induction ancestors generalizing node with
  | nil =>
    obtain rfl : node = tree := Option.some.inj h.1
    exact List.Subset.refl _
  | cons parent ancestors ih =>
    have hdown : ((Chain.mk parent ancestors).down node).IsIn tree := h
    have hchild : node ∈ parent.children := by
      have hchain := hdown.2
      rw [nodes_down, List.isChain_append] at hchain
      exact hchain.2.2 parent (by simp [nodes_eq]) node rfl
    exact List.Subset.trans (Node.allPaths_subset_of_mem hchild) (ih parent hdown.up)

end Chain

namespace Node

/-- A chain from the root of a tree along child links stands at a place of the tree. -/
theorem exists_leads_of_isIn {tree : Node} {c : Chain} (h : c.IsIn tree) :
    ∃ place, tree.Leads place c.nodes := by
  have hleads (ns : List Node) : ∀ n : Node,
      (n :: ns).IsChain (fun n child => child ∈ n.children) → ∃ place, n.Leads place (n :: ns) := by
    induction ns with
    | nil => exact fun n _ => ⟨[], .here n⟩
    | cons child ns ih =>
      intro n hchain
      obtain ⟨hchild, hchain⟩ := List.isChain_cons_cons.1 hchain
      obtain ⟨i, hi⟩ := List.mem_iff_getElem?.1 hchild
      obtain ⟨place, hplace⟩ := ih child hchain
      exact ⟨i :: place, .down hi hplace⟩
  obtain ⟨hhead, hchain⟩ := h
  obtain ⟨ns, hns⟩ := List.head?_eq_some_iff.1 hhead
  rw [hns] at hchain ⊢
  exact hleads ns tree hchain

end Node

namespace Resolution

variable {c d : Chain} {name : Text} {fault : Fault} {tree child : Node}

theorem step_up (c : Chain) (child : Node) : step (c.down child) parentStep = .ok c := by
  rw [step, if_pos rfl]
  rfl

theorem step_down (h : c.node.Enters child) : step c child.name = .ok (c.down child) := by
  rw [step, if_neg h.named, Node.child?_eq_some_iff.2 ⟨rfl, h.first⟩]

/-- What a step can do. -/
theorem cases_of_step (h : step c name = .ok d) :
    (name = parentStep ∧ c = d.down c.node) ∨
      ∃ child, child.name = name ∧ c.node.Enters child ∧ d = c.down child := by
  rw [step] at h
  split at h
  · rename_i hname
    split at h
    · rename_i d' hup
      obtain rfl := Except.ok.inj h
      exact .inl ⟨hname, Chain.up?_eq_some_iff.1 hup⟩
    · cases h
  · rename_i hname
    split at h
    · rename_i child hchild
      obtain ⟨rfl, hfirst⟩ := Node.child?_eq_some_iff.1 hchild
      exact .inr ⟨child, rfl, ⟨hfirst, hname⟩, (Except.ok.inj h).symm⟩
    · cases h

/-- A step fails at the root, or at an instance that has no child of the name. -/
theorem step_eq_error_iff (h : c.IsIn tree) :
    step c name = .error fault ↔
      (name = parentStep ∧ c.nodes = [tree] ∧ fault = .aboveRoot c) ∨
        (name ≠ parentStep ∧ (∀ m ∈ c.node.children, m.name ≠ name) ∧ fault = .noChild name c) := by
  rw [step, ← Chain.up?_eq_none_iff h, ← Node.child?_eq_none_iff]
  by_cases hname : name = parentStep
  · cases c.up? <;> simp [hname, eq_comm]
  · cases c.node.child? name <;> simp [hname, eq_comm]

end Resolution

/-! ## Walks -/

namespace Node

/-- What a path of a file reaches in a tree: the start of its first name, and from there the place
above or a first child for each further name. -/
inductive Reaches (tree : Node) (file : Path) : RequirePath → Chain → Prop where
  | start {head : Text} {c : Chain} (h : anchor tree file head = .ok c) :
      Reaches tree file [head] c
  | up {path : RequirePath} {c : Chain} {child : Node}
      (before : Reaches tree file path (c.down child)) :
      Reaches tree file (path ++ [parentStep]) c
  | down {path : RequirePath} {c : Chain} {child : Node} (before : Reaches tree file path c)
      (h : c.node.Enters child) : Reaches tree file (path ++ [child.name]) (c.down child)

end Node

namespace Resolution

theorem walk_append (c : Chain) (names others : List Text) :
    walk c (names ++ others) = walk c names >>= (walk · others) := by
  induction names generalizing c with
  | nil => rfl
  | cons name names ih =>
    rw [List.cons_append, walk, walk, bind_assoc]
    exact bind_congr fun d => ih d

theorem walk_singleton (c : Chain) (name : Text) : walk c [name] = step c name := by
  rw [walk]
  exact bind_pure (step c name)

/-- A walk along a name and others takes one step and walks along the others. -/
theorem exists_step_of_walk {c d : Chain} {name : Text} {names : List Text}
    (h : walk c (name :: names) = .ok d) : ∃ e, step c name = .ok e ∧ walk e names = .ok d := by
  rw [walk] at h
  cases hstep : step c name with
  | error fault =>
    rw [hstep] at h
    cases h
  | ok e =>
    rw [hstep] at h
    exact ⟨e, rfl, h⟩

/-- A walk that fails does so at a step, the names before which can be walked. -/
theorem step_of_walk_eq_error {c : Chain} {names : List Text} {fault : Fault}
    (h : walk c names = .error fault) : ∃ before name after d, names = before ++ name :: after ∧
      walk c before = .ok d ∧ step d name = .error fault := by
  induction names generalizing c with
  | nil => cases h
  | cons name names ih =>
    rw [walk] at h
    cases hstep : step c name with
    | error fault' =>
      rw [hstep] at h
      cases h
      exact ⟨[], name, names, c, rfl, rfl, hstep⟩
    | ok e =>
      rw [hstep] at h
      obtain ⟨before, name', after, d, rfl, hwalk, hd⟩ := ih h
      refine ⟨name :: before, name', after, d, rfl, ?_, hd⟩
      rw [walk, hstep]
      exact hwalk

end Resolution

namespace Node

variable {tree : Node} {file : Path} {path : RequirePath} {c start : Chain} {head : Text}
  {fault : Fault}

theorem resolve_cons (h : anchor tree file head = .ok start) (names : List Text) :
    tree.resolve file (head :: names) = walk start names := by
  rw [resolve, h]
  rfl

theorem anchor_of_resolve {names : List Text} (h : tree.resolve file (head :: names) = .ok c) :
    ∃ start, anchor tree file head = .ok start ∧ walk start names = .ok c := by
  cases hanchor : anchor tree file head with
  | error fault =>
    rw [resolve, hanchor] at h
    cases h
  | ok start => exact ⟨start, rfl, (resolve_cons hanchor names).symm.trans h⟩

/-- A path goes on from what its first names reach. -/
theorem resolve_append (h : tree.resolve file path = .ok c) (others : RequirePath) :
    tree.resolve file (path ++ others) = walk c others := by
  cases path with
  | nil => cases h
  | cons head names =>
    obtain ⟨start, hstart, hwalk⟩ := anchor_of_resolve h
    rw [List.cons_append, resolve_cons hstart, walk_append, hwalk]
    rfl

theorem reaches_of_walk {path names : RequirePath} {d : Chain} (hc : tree.Reaches file path c)
    (h : walk c names = .ok d) : tree.Reaches file (path ++ names) d := by
  induction names generalizing path c with
  | nil =>
    cases h
    rwa [List.append_nil]
  | cons name names ih =>
    obtain ⟨e, hstep, hwalk⟩ := exists_step_of_walk h
    rw [List.append_cons]
    rcases cases_of_step hstep with ⟨rfl, hup⟩ | ⟨child, rfl, hchild, rfl⟩
    · rw [hup] at hc
      exact ih (.up hc) hwalk
    · exact ih (.down hc hchild) hwalk

/-- A path leads to what it reaches. -/
theorem resolve_eq_ok_iff : tree.resolve file path = .ok c ↔ tree.Reaches file path c := by
  constructor
  · intro h
    cases path with
    | nil => cases h
    | cons head names =>
      obtain ⟨start, hstart, hwalk⟩ := anchor_of_resolve h
      exact reaches_of_walk (.start hstart) hwalk
  · intro h
    induction h with
    | start h => exact resolve_cons h []
    | @up path c child _ ih => rw [resolve_append ih, walk_singleton, step_up]
    | down _ h ih => rw [resolve_append ih, walk_singleton, step_down h]

/-- A path fails at its start, or at the first name whose step fails. -/
theorem resolve_eq_error_iff :
    tree.resolve file path = .error fault ↔
      (path = [] ∧ fault = .empty) ∨
      (∃ head names, path = head :: names ∧ anchor tree file head = .error fault) ∨
      ∃ before name after c, path = before ++ name :: after ∧ tree.Reaches file before c ∧
        step c name = .error fault := by
  constructor
  · intro h
    cases path with
    | nil =>
      cases h
      exact .inl ⟨rfl, rfl⟩
    | cons head names =>
      cases hanchor : anchor tree file head with
      | error fault' =>
        rw [resolve, hanchor] at h
        cases h
        exact .inr (.inl ⟨head, names, rfl, hanchor⟩)
      | ok start =>
        rw [resolve_cons hanchor] at h
        obtain ⟨before, name, after, c, rfl, hwalk, hstep⟩ := step_of_walk_eq_error h
        exact .inr (.inr ⟨head :: before, name, after, c, rfl,
          reaches_of_walk (.start hanchor) hwalk, hstep⟩)
  · rintro (⟨rfl, rfl⟩ | ⟨head, names, rfl, hanchor⟩ | ⟨before, name, after, c, rfl, hc, hstep⟩)
    · rfl
    · rw [resolve, hanchor]
      rfl
    · rw [resolve_append (resolve_eq_ok_iff.2 hc), walk, hstep]
      rfl

/-- A path starts at a place of the tree, and what it reaches follows from there. -/
theorem Reaches.follows (h : tree.Reaches file path c) :
    ∃ head names start, path = head :: names ∧ anchor tree file head = .ok start ∧
      start.Follows c := by
  induction h with
  | @start head c h => exact ⟨head, [], c, rfl, h, .refl c⟩
  | up _ ih =>
    obtain ⟨head, names, start, rfl, hstart, hfollows⟩ := ih
    exact ⟨head, names ++ [parentStep], start, rfl, hstart, hfollows.up⟩
  | down _ hchild ih =>
    obtain ⟨head, names, start, rfl, hstart, hfollows⟩ := ih
    exact ⟨head, names ++ [_], start, rfl, hstart, hfollows.down hchild⟩

theorem isIn_of_anchor (h : anchor tree file head = .ok c) : c.IsIn tree := by
  rw [anchor] at h
  split at h
  · split at h
    · rename_i howner
      obtain ⟨place, hplace, -⟩ := first_of_owner? howner
      cases h
      exact isIn_of_chainAt? hplace
    · cases h
  · split at h
    · cases h
      exact ⟨rfl, List.isChain_singleton tree⟩
    · cases h

/-- The walk stays in the tree. -/
theorem Reaches.isIn (h : tree.Reaches file path c) : c.IsIn tree := by
  induction h with
  | start h => exact isIn_of_anchor h
  | up _ ih => exact ih.up
  | down _ h ih => exact ih.down h.first.mem

/-- A step to a child and the step up behind it leave no trace. -/
theorem resolve_down_up {child : Node} (hc : tree.Reaches file path c)
    (hchild : child ∈ c.node.children) (hname : child.name ≠ parentStep) (others : RequirePath) :
    tree.resolve file (path ++ child.name :: parentStep :: others) =
      tree.resolve file (path ++ others) := by
  obtain ⟨first, hfirst⟩ : ∃ first, c.node.child? child.name = some first := by
    refine Option.ne_none_iff_exists'.1 fun hnone => ?_
    exact child?_eq_none_iff.1 hnone child hchild rfl
  obtain ⟨hsame, hfirst⟩ := child?_eq_some_iff.1 hfirst
  rw [← hsame] at hname ⊢
  have hdown := step_down (c := c) ⟨hfirst, hname⟩
  have hreaches := resolve_eq_ok_iff.2 hc
  rw [resolve_append hreaches, resolve_append hreaches, walk, hdown]
  change walk (c.down first) (parentStep :: others) = _
  rw [walk, step_up]
  rfl

/-! ## Refusals -/

/-- A path is refused with a problem of a kind. -/
def Refuses (kind : Problem.Kind) (result : Except Fault Chain) : Prop :=
  ∃ fault, result = .error fault ∧ fault.problem.kind = kind

theorem kind_of_anchor (h : anchor tree file head = .error fault) :
    fault.problem.kind = .unlistedFile ∨ fault.problem.kind = .unsupportedAnchor := by
  rw [anchor] at h
  split at h
  · split at h <;> cases h
    exact .inl rfl
  · split at h <;> cases h
    exact .inr rfl

/-- The problem of a step tells the first name that leads nowhere. -/
theorem refuses_iff {kind : Problem.Kind} (hunlisted : kind ≠ .unlistedFile)
    (hanchor : kind ≠ .unsupportedAnchor) :
    Refuses kind (tree.resolve file path) ↔ ∃ before name after c fault,
      path = before ++ name :: after ∧ tree.Reaches file before c ∧ step c name = .error fault ∧
        fault.problem.kind = kind := by
  constructor
  · rintro ⟨fault, h, rfl⟩
    rcases resolve_eq_error_iff.1 h with
      ⟨-, rfl⟩ | ⟨head, names, -, h⟩ | ⟨before, name, after, c, hpath, hc, hstep⟩
    · exact absurd rfl hanchor
    · exact ((kind_of_anchor h).elim hunlisted hanchor).elim
    · exact ⟨before, name, after, c, fault, hpath, hc, hstep, rfl⟩
  · rintro ⟨before, name, after, c, fault, hpath, hc, hstep, hkind⟩
    exact ⟨fault, resolve_eq_error_iff.2 (.inr (.inr ⟨before, name, after, c, hpath, hc, hstep⟩)),
      hkind⟩

theorem refuses_brokenPath_iff :
    Refuses .brokenPath (tree.resolve file path) ↔ ∃ before after c,
      path = before ++ parentStep :: after ∧ tree.Reaches file before c ∧ c.nodes = [tree] := by
  rw [refuses_iff (by decide) (by decide)]
  constructor
  · rintro ⟨before, name, after, c, fault, hpath, hc, hstep, hkind⟩
    rcases (step_eq_error_iff hc.isIn).1 hstep with ⟨rfl, hroot, -⟩ | ⟨-, -, rfl⟩
    · exact ⟨before, after, c, hpath, hc, hroot⟩
    · cases hkind
  · rintro ⟨before, after, c, hpath, hc, hroot⟩
    exact ⟨before, parentStep, after, c, .aboveRoot c, hpath, hc,
      (step_eq_error_iff hc.isIn).2 (.inl ⟨rfl, hroot, rfl⟩), rfl⟩

theorem refuses_unresolvedChild_iff :
    Refuses .unresolvedChild (tree.resolve file path) ↔ ∃ before name after c,
      path = before ++ name :: after ∧ tree.Reaches file before c ∧ name ≠ parentStep ∧
        ∀ m ∈ c.node.children, m.name ≠ name := by
  rw [refuses_iff (by decide) (by decide)]
  constructor
  · rintro ⟨before, name, after, c, fault, hpath, hc, hstep, hkind⟩
    rcases (step_eq_error_iff hc.isIn).1 hstep with ⟨-, -, rfl⟩ | ⟨hname, hchildren, -⟩
    · cases hkind
    · exact ⟨before, name, after, c, hpath, hc, hname, hchildren⟩
  · rintro ⟨before, name, after, c, hpath, hc, hname, hchildren⟩
    exact ⟨before, name, after, c, .noChild name c, hpath, hc,
      (step_eq_error_iff hc.isIn).2 (.inr ⟨hname, hchildren, rfl⟩), rfl⟩

/-- A path leads to what it reaches. At any time the walk along it stands at a place of the tree,
and its chain is an upper part of the one it started with, continued by first children. Anywhere
behind the start, a step to a child of the instance that is reached can be put in together with the
step up behind it, and the result is the same. A path is refused for going above the root exactly if
the first of its names that leads nowhere is a step up at the root, and for a missing child exactly if
that is a name which no child of the instance reached has. -/
theorem path_walked (tree : Node) (file : Path) :
    (∀ path c, tree.resolve file path = .ok c ↔ tree.Reaches file path c) ∧
    (∀ path c, tree.Reaches file path c →
      (∃ place, tree.Leads place c.nodes) ∧
      ∃ head names start, path = head :: names ∧ anchor tree file head = .ok start ∧
        start.Follows c) ∧
    (∀ before after c child, tree.Reaches file before c → child ∈ c.node.children →
      child.name ≠ parentStep →
      tree.resolve file (before ++ child.name :: parentStep :: after) =
        tree.resolve file (before ++ after)) ∧
    ∀ path,
      (Refuses .brokenPath (tree.resolve file path) ↔ ∃ before after c,
        path = before ++ parentStep :: after ∧ tree.Reaches file before c ∧ c.nodes = [tree]) ∧
      (Refuses .unresolvedChild (tree.resolve file path) ↔ ∃ before name after c,
        path = before ++ name :: after ∧ tree.Reaches file before c ∧ name ≠ parentStep ∧
          ∀ child ∈ c.node.children, child.name ≠ name) := by
  refine ⟨fun path c => resolve_eq_ok_iff, fun path c h => ?_, ?_, fun path => ?_⟩
  · exact ⟨exists_leads_of_isIn h.isIn, h.follows⟩
  · exact fun before after c child hc hchild hname => resolve_down_up hc hchild hname after
  · exact ⟨refuses_brokenPath_iff, refuses_unresolvedChild_iff⟩

/-- A folder with a script. -/
def twin (script : Node) : Node := .mk "Twin" "Folder" [] [script]

/-- The script of the first twin. -/
def firstScript : Node := .mk "A" "ModuleScript" [.absolute ["a.lua"]] []

/-- The script of the second twin. -/
def secondScript : Node := .mk "B" "ModuleScript" [.absolute ["b.lua"]] []

/-- A tree with two children of one name, each with a script. -/
def twinTree : Node := .mk "game" "DataModel" [] [twin firstScript, twin secondScript]

theorem owner?_firstScript : twinTree.owner? (.absolute ["a.lua"]) =
    some ⟨firstScript, [twin firstScript, twinTree]⟩ := by
  rw [owner?_eq_firstOf]
  rfl

theorem owner?_secondScript : twinTree.owner? (.absolute ["b.lua"]) =
    some ⟨secondScript, [twin secondScript, twinTree]⟩ := by
  rw [owner?_eq_firstOf]
  rfl

theorem enters_firstTwin : twinTree.Enters (twin firstScript) where
  first := (child?_eq_some_iff.1 (rfl : twinTree.child? "Twin" = _)).2
  named := by decide

/-- Of the paths from the script of the second twin, one with a detour over the first twin leads to
where it leads without the detour, one goes above the root, and one misses the script itself, since
the name of the twins leads to the first one. -/
theorem path_walked_twins :
    (∀ after : RequirePath, twinTree.resolve (.absolute ["b.lua"])
        (scriptAnchor :: parentStep :: parentStep :: "Twin" :: parentStep :: after) =
      twinTree.resolve (.absolute ["b.lua"])
        (scriptAnchor :: parentStep :: parentStep :: after)) ∧
    Refuses .brokenPath (twinTree.resolve (.absolute ["b.lua"])
      [scriptAnchor, parentStep, parentStep, parentStep]) ∧
    Refuses .unresolvedChild (twinTree.resolve (.absolute ["b.lua"])
      [scriptAnchor, parentStep, parentStep, "Twin", "B"]) := by
  obtain ⟨-, -, hdetour, hrefused⟩ := path_walked twinTree (.absolute ["b.lua"])
  have hscript : twinTree.Reaches (.absolute ["b.lua"]) [scriptAnchor]
      (Chain.down ⟨twin secondScript, [twinTree]⟩ secondScript) := by
    refine .start ?_
    rw [anchor, if_pos rfl, owner?_secondScript]
    rfl
  have hfolder : twinTree.Reaches (.absolute ["b.lua"]) [scriptAnchor, parentStep]
      (Chain.down ⟨twinTree, []⟩ (twin secondScript)) := hscript.up
  have hroot : twinTree.Reaches (.absolute ["b.lua"]) [scriptAnchor, parentStep, parentStep]
      ⟨twinTree, []⟩ := hfolder.up
  have htwin := hroot.down enters_firstTwin
  refine ⟨fun after => ?_, ?_, ?_⟩
  · exact hdetour [scriptAnchor, parentStep, parentStep] after _ _ hroot enters_firstTwin.first.mem
      enters_firstTwin.named
  · exact (hrefused _).1.2 ⟨_, [], _, rfl, hroot, rfl⟩
  · exact (hrefused _).2.2 ⟨_, "B", [], _, rfl, htwin, by decide, by decide⟩

end Node

/-! ## Paths from the file and paths from the root -/

namespace Resolution

variable {c d : Chain} {names : List Text} {entered : List Node}

/-- Names that lead from each instance to the next can be walked. -/
theorem walk_entered (h : (c.node :: entered).IsChain Node.Enters) :
    ∃ d, d.nodes = c.nodes ++ entered ∧ walk c (entered.map Node.name) = .ok d := by
  induction entered generalizing c with
  | nil => exact ⟨c, (List.append_nil c.nodes).symm, rfl⟩
  | cons child entered ih =>
    obtain ⟨hchild, hentered⟩ := List.isChain_cons_cons.1 h
    obtain ⟨d, hd, hwalk⟩ := ih (c := c.down child) hentered
    refine ⟨d, by rw [hd, Chain.nodes_down, List.append_assoc, List.singleton_append], ?_⟩
    rw [List.map_cons, walk, step_down hchild]
    exact hwalk

/-- Each name takes a walk down by one instance at most. If every one does, the walk has entered an
instance for each. -/
theorem entered_of_walk (h : walk c names = .ok d) :
    d.nodes.length ≤ c.nodes.length + names.length ∧
      (d.nodes.length = c.nodes.length + names.length →
        ∃ entered, d.nodes = c.nodes ++ entered ∧ (c.node :: entered).IsChain Node.Enters) := by
  induction names generalizing c with
  | nil =>
    cases h
    exact ⟨Nat.le_refl _, fun _ => ⟨[], (List.append_nil _).symm, List.isChain_singleton _⟩⟩
  | cons name names ih =>
    obtain ⟨e, hstep, hwalk⟩ := exists_step_of_walk h
    obtain ⟨hle, hentered⟩ := ih hwalk
    rw [List.length_cons]
    rcases cases_of_step hstep with ⟨-, hup⟩ | ⟨child, -, hchild, rfl⟩
    -- After a step up the walk cannot come as deep any more as there are names.
    · have hlength : c.nodes.length = e.nodes.length + 1 := by
        rw [hup, Chain.nodes_down, List.length_append, List.length_singleton]
      exact ⟨by omega, fun heq => by omega⟩
    · have hlength : (c.down child).nodes.length = c.nodes.length + 1 := by
        rw [Chain.nodes_down, List.length_append, List.length_singleton]
      refine ⟨by omega, fun heq => ?_⟩
      obtain ⟨entered, hnodes, hchain⟩ := hentered (by omega)
      refine ⟨child :: entered, ?_, .cons_cons hchild hchain⟩
      rw [hnodes, Chain.nodes_down, List.append_assoc, List.singleton_append]

end Resolution

namespace Node

variable {tree : Node} {file : Path} {c : Chain}

/-- A path from the file and the path from the root that names the chain of its owner in the place
of the file agree, whatever follows, exactly if each instance of this chain is the first child of its
name and none is named like the step up. -/
theorem anchors_agree (howner : tree.owner? file = some c) :
    (∀ others, tree.resolve file (rootAnchor :: (c.nodes.tail.map name ++ others)) =
        tree.resolve file (scriptAnchor :: others)) ↔
      c.nodes.IsChain Enters := by
  have hscript : anchor tree file scriptAnchor = .ok c := by rw [anchor, if_pos rfl, howner]
  have hroot : anchor tree file rootAnchor = .ok ⟨tree, []⟩ := by
    rw [anchor, if_neg (by decide), if_pos rfl]
  obtain ⟨entered, hnodes⟩ := List.head?_eq_some_iff.1 (isIn_of_anchor hscript).1
  rw [hnodes, List.tail_cons]
  constructor
  · intro h
    have hwalk := h []
    rw [List.append_nil, resolve_cons hroot, resolve_cons hscript] at hwalk
    obtain ⟨entered', hentered', hchain⟩ := (entered_of_walk hwalk).2 (by
      rw [hnodes, List.length_map, List.length_cons, Nat.add_comm]
      rfl)
    rw [hnodes] at hentered'
    obtain rfl := (List.cons.inj hentered').2
    exact hchain
  · intro h others
    obtain ⟨d, hd, hwalk⟩ := walk_entered (c := ⟨tree, []⟩) h
    obtain rfl : d = c := Chain.eq_of_nodes_eq (hd.trans hnodes.symm)
    rw [resolve_cons hroot, resolve_cons hscript, walk_append, hwalk]
    rfl

/-- Paths from the script of the first twin agree with paths from the root, and those from the
script of the second one do not. -/
theorem anchors_agree_twins :
    (∀ others : RequirePath,
      twinTree.resolve (.absolute ["a.lua"]) (rootAnchor :: "Twin" :: "A" :: others) =
        twinTree.resolve (.absolute ["a.lua"]) (scriptAnchor :: others)) ∧
    ¬∀ others : RequirePath,
      twinTree.resolve (.absolute ["b.lua"]) (rootAnchor :: "Twin" :: "B" :: others) =
        twinTree.resolve (.absolute ["b.lua"]) (scriptAnchor :: others) := by
  constructor
  · refine (anchors_agree owner?_firstScript).2 (.cons_cons enters_firstTwin (.cons_cons ?_ ?_))
    · exact ⟨(child?_eq_some_iff.1 (rfl : (twin firstScript).child? "A" = _)).2, by decide⟩
    · exact List.isChain_singleton firstScript
  · intro h
    have hchain := (anchors_agree owner?_secondScript).1 h
    have hentered := (List.isChain_cons_cons.1 hchain).1.first
    have htwin := congrArg (Option.map fun n => n.children.map name)
      (child?_eq_some_iff.2 ⟨rfl, hentered⟩)
    exact absurd htwin (by decide)

end Node

end TypedLinks
