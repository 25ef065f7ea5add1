import Mathlib.Logic.Relation
import TypedLinks.Proofs.Sourcemap.Owner

/-!
# The search for the owner

The chains that are still to be looked at stand in one list, in which siblings of many levels are
mixed. A round takes the first of them and puts its children in its place; it leaves fewer instances
at the chains and below them, and the first of these that lists the file is still the same one. So
the search ends, and its answer is that of the recursive search: an instance itself, or else the
first answer among its children.
-/

namespace TypedLinks

/-! ## Places and what leads to them -/

namespace Node

/-- The positions of a place lead from an instance over some instances, each the child of the one
before it at the next position. The instances at both ends are among them. -/
inductive Leads : Node → List Nat → List Node → Prop where
  | here (n : Node) : Leads n [] [n]
  | down {n child : Node} {i : Nat} {place : List Nat} {nodes : List Node}
      (position : n.children[i]? = some child) (others : Leads child place nodes) :
      Leads n (i :: place) (n :: nodes)

/-- Whether the instance at a place of a tree lists a file. -/
def ListsAt (tree : Node) (p : Path) (place : List Nat) : Prop :=
  ∃ above n, tree.Leads place (above ++ [n]) ∧ p ∈ n.paths

end Node

namespace Chain

theorem eq_of_nodes_eq {c d : Chain} (h : c.nodes = d.nodes) : c = d := by
  obtain ⟨n, up⟩ := c
  obtain ⟨m, up'⟩ := d
  obtain ⟨hup, hn⟩ := List.append_inj' h rfl
  obtain rfl := List.reverse_injective hup
  obtain rfl := List.singleton_injective hn
  rfl

theorem follow?_eq_some_iff {c d : Chain} {place : List Nat} :
    c.follow? place = some d ↔
      ∃ nodes, c.node.Leads place nodes ∧ d.nodes = c.ancestors.reverse ++ nodes := by
  induction place generalizing c with
  | nil =>
    constructor
    · intro hd
      obtain rfl : c = d := Option.some.inj hd
      exact ⟨[c.node], .here c.node, rfl⟩
    · rintro ⟨_, hleads, hd⟩
      cases hleads
      exact congrArg some (eq_of_nodes_eq hd).symm
  | cons i is ih =>
    have hup (n : Node) (nodes : List Node) :
        (c.down n).ancestors.reverse ++ nodes = c.ancestors.reverse ++ c.node :: nodes := by
      rw [down, List.reverse_cons, List.append_assoc, List.singleton_append]
    rw [follow?, Option.bind_eq_some_iff]
    constructor
    · rintro ⟨n, hn, hd⟩
      obtain ⟨nodes, hleads, hnodes⟩ := ih.1 hd
      exact ⟨c.node :: nodes, .down hn hleads, by rw [hnodes, hup]⟩
    · rintro ⟨_, hleads, hnodes⟩
      cases hleads with
      | @down _ n _ _ nodes hn hleads =>
        exact ⟨n, hn, ih.2 ⟨nodes, hleads, by rw [hnodes, hup]⟩⟩

end Chain

namespace Node

variable {tree : Node} {p : Path} {place : List Nat}

theorem chainAt?_eq_some_iff {c : Chain} :
    tree.chainAt? place = some c ↔ tree.Leads place c.nodes := by
  rw [chainAt?, Chain.follow?_eq_some_iff]
  constructor
  · rintro ⟨nodes, hleads, hnodes⟩
    rwa [hnodes]
  · exact fun h => ⟨c.nodes, h, rfl⟩

theorem listsAt_iff :
    tree.ListsAt p place ↔ ∃ c, tree.chainAt? place = some c ∧ p ∈ c.node.paths := by
  constructor
  · rintro ⟨above, n, hleads, hlisted⟩
    refine ⟨⟨n, above.reverse⟩, chainAt?_eq_some_iff.2 ?_, hlisted⟩
    rwa [Chain.nodes, List.reverse_reverse]
  · rintro ⟨c, hc, hlisted⟩
    exact ⟨c.ancestors.reverse, c.node, chainAt?_eq_some_iff.1 hc, hlisted⟩

theorem listsAt_iff_of_chainAt? {c : Chain} (h : tree.chainAt? place = some c) :
    tree.ListsAt p place ↔ p ∈ c.node.paths := by
  rw [listsAt_iff, h]
  simp

end Node

/-! ## Rounds -/

namespace Chain

variable {p : Path} {cs ds : List Chain}

/-- A round of the search: the first chain does not list the file, and those below it take its
place. -/
inductive Round (p : Path) : List Chain → List Chain → Prop where
  | below {c : Chain} {rest : List Chain} (unlisted : p ∉ c.node.paths) :
      Round p (c :: rest) (c.below ++ rest)

/-- The answer of a search that needs no further round. -/
inductive Answers (p : Path) : List Chain → Option Chain → Prop where
  | nothing : Answers p [] none
  | found {c : Chain} {rest : List Chain} (listed : p ∈ c.node.paths) :
      Answers p (c :: rest) (some c)

/-- A search from some chains comes to an answer after any number of rounds. -/
def Searches (p : Path) (cs : List Chain) (answer : Option Chain) : Prop :=
  ∃ ds, Relation.ReflTransGen (Round p) cs ds ∧ Answers p ds answer

/-- The first of some chains and those below them that lists a file. -/
def firstOf (p : Path) (cs : List Chain) : Option Chain :=
  (cs.flatMap preorder).find? (·.node.paths.contains p)

theorem firstOf_cons_of_mem {c : Chain} (h : p ∈ c.node.paths) (rest : List Chain) :
    firstOf p (c :: rest) = some c := by
  rw [firstOf, List.flatMap_cons, preorder_eq, List.cons_append]
  exact List.find?_cons_of_pos (List.contains_iff_mem.2 h)

theorem firstOf_cons_of_notMem {c : Chain} (h : p ∉ c.node.paths) (rest : List Chain) :
    firstOf p (c :: rest) = firstOf p (c.below ++ rest) := by
  rw [firstOf, List.flatMap_cons, preorder_eq, List.cons_append, ← List.flatMap_append]
  exact List.find?_cons_of_neg (mt List.contains_iff_mem.1 h)

theorem firstOf_append (cs ds : List Chain) :
    firstOf p (cs ++ ds) = (firstOf p cs).or (firstOf p ds) := by
  rw [firstOf, List.flatMap_append, List.find?_append]
  rfl

/-- A round leaves fewer instances to be looked at. -/
theorem Round.total_lt (h : Round p cs ds) : total ds < total cs := by
  cases h with
  | below =>
    rw [total_append, total_below, total_cons]
    omega

/-- A round keeps the first chain that lists the file. -/
theorem Round.firstOf_eq (h : Round p cs ds) : firstOf p cs = firstOf p ds := by
  cases h with
  | below hunlisted => exact firstOf_cons_of_notMem hunlisted _

/-- No search goes on for ever, wherever it starts. -/
theorem wellFounded_round (p : Path) : WellFounded fun ds cs => Round p cs ds :=
  Subrelation.wf Round.total_lt (InvImage.wf total Nat.lt_wfRel.wf)

theorem Answers.eq_firstOf {answer : Option Chain} (h : Answers p cs answer) :
    answer = firstOf p cs := by
  cases h with
  | nothing => rfl
  | found hlisted => exact (firstOf_cons_of_mem hlisted _).symm

/-- A search either has its answer or goes on. -/
theorem answers_or_round (p : Path) (cs : List Chain) :
    (∃ answer, Answers p cs answer) ∨ ∃ ds, Round p cs ds := by
  cases cs with
  | nil => exact .inl ⟨none, .nothing⟩
  | cons c rest =>
    by_cases h : p ∈ c.node.paths
    · exact .inl ⟨some c, .found h⟩
    · exact .inr ⟨c.below ++ rest, .below h⟩

/-- Any number of rounds keeps the first chain that lists the file. -/
theorem firstOf_eq_of_rounds (h : Relation.ReflTransGen (Round p) cs ds) :
    firstOf p cs = firstOf p ds := by
  induction h with
  | refl => rfl
  | tail _ hround ih => exact ih.trans hround.firstOf_eq

/-- Every search comes to one answer: the first chain that lists the file. -/
theorem searches_iff {answer : Option Chain} : Searches p cs answer ↔ answer = firstOf p cs := by
  constructor
  · rintro ⟨ds, hrounds, hanswer⟩
    rw [hanswer.eq_firstOf, firstOf_eq_of_rounds hrounds]
  · rintro rfl
    induction cs using (wellFounded_round p).induction with
    | _ cs ih =>
      rcases answers_or_round p cs with ⟨answer, hanswer⟩ | ⟨ds, hround⟩
      · rw [← hanswer.eq_firstOf]
        exact ⟨cs, .refl, hanswer⟩
      · obtain ⟨es, hrounds, hanswer⟩ := ih ds hround
        rw [hround.firstOf_eq]
        exact ⟨es, .head hround hrounds, hanswer⟩

end Chain

/-! ## The recursive search -/

namespace Node

mutual

/-- The chain from an instance to the first one at or below it that lists a file: the instance
alone if it lists the file, else the first chain from a child, with the instance in front. -/
def firstChain? (p : Path) : Node → Option (List Node)
  | mk name className paths children =>
    if p ∈ paths then some [mk name className paths children]
    else (firstChainOf? p children).map (mk name className paths children :: ·)

/-- The first chain that one of some trees has. -/
def firstChainOf? (p : Path) : List Node → Option (List Node)
  | [] => none
  | n :: ns => (n.firstChain? p).or (firstChainOf? p ns)

end

mutual

theorem map_nodes_firstOf (p : Path) : ∀ (n : Node) (up : List Node),
    (Chain.firstOf p [⟨n, up⟩]).map Chain.nodes = (n.firstChain? p).map (up.reverse ++ ·)
  | mk name className paths children, up => by
    rw [firstChain?]
    split
    · rename_i hlisted
      rw [Chain.firstOf_cons_of_mem hlisted]
      rfl
    · rename_i hunlisted
      have hbelow : (Chain.mk (mk name className paths children) up).below =
          children.map (Chain.mk · (mk name className paths children :: up)) := rfl
      rw [Chain.firstOf_cons_of_notMem hunlisted, List.append_nil, hbelow,
        map_nodes_firstOf_each p children, Option.map_map]
      simp [Function.comp_def]

theorem map_nodes_firstOf_each (p : Path) : ∀ (ns up : List Node),
    (Chain.firstOf p (ns.map (Chain.mk · up))).map Chain.nodes =
      (firstChainOf? p ns).map (up.reverse ++ ·)
  | [], up => by
    rw [firstChainOf?]
    rfl
  | n :: ns, up => by
    rw [firstChainOf?, List.map_cons, ← List.singleton_append, Chain.firstOf_append, Option.map_or,
      Option.map_or, map_nodes_firstOf p n up, map_nodes_firstOf_each p ns up]

end

/-! ## The owner -/

theorem owner?_eq_firstOf (tree : Node) (p : Path) :
    tree.owner? p = Chain.firstOf p [⟨tree, []⟩] := by
  rw [owner?_eq_find?, Chain.firstOf, List.flatMap_singleton]

/-- The search for the owner of a file ends, wherever it starts, and its answer is the owner. The
owner is what the recursive search finds; there is none exactly if no instance lists the file, and
else it stands at the first place that lists the file, to which positions lead from each instance to
the next. -/
theorem owner_search (tree : Node) (p : Path) :
    (WellFounded fun later earlier => Chain.Round p earlier later) ∧
    (∀ answer, Chain.Searches p [⟨tree, []⟩] answer ↔ answer = tree.owner? p) ∧
    (tree.owner? p).map Chain.nodes = tree.firstChain? p ∧
    (tree.owner? p = none ↔ ∀ place, ¬tree.ListsAt p place) ∧
    ∀ c, tree.owner? p = some c ↔ ∃ place, tree.Leads place c.nodes ∧ tree.ListsAt p place ∧
      ∀ earlier < place, ¬tree.ListsAt p earlier := by
  have hlists (place : List Nat) : ¬tree.ListsAt p place ↔
      ∀ c, tree.chainAt? place = some c → p ∉ c.node.paths := by
    rw [listsAt_iff, not_exists]
    exact forall_congr' fun c => not_and
  refine ⟨Chain.wellFounded_round p, fun answer => ?_, ?_, ?_, fun c => ?_⟩
  · rw [Chain.searches_iff, owner?_eq_firstOf]
  · rw [owner?_eq_firstOf, map_nodes_firstOf]
    exact Option.map_id'
  · rw [owner?_eq_none_iff]
    exact forall_congr' fun place => (hlists place).symm
  · rw [owner?_eq_some_iff]
    refine exists_congr fun place => ?_
    rw [← chainAt?_eq_some_iff]
    refine and_congr_right fun hc => and_congr (listsAt_iff_of_chainAt? hc).symm ?_
    exact forall₂_congr fun earlier _ => (hlists earlier).symm

end Node

end TypedLinks
