import Mathlib.Algebra.GroupWithZero.Nat
import Mathlib.Data.List.Chain
import TypedLinks.Sourcemap.Search

/-!
# The first instance that lists a file

A place in a tree is written as the positions of the children that lead to it from the root. In the
order of places an instance comes before its children, and what is below a child before the children
to its right: it is the lexicographic order of the positions. The search for the owner of a file looks
at the instances in this order, and its number of looks suffices for all of them.
-/

namespace TypedLinks

/-! ## Places -/

namespace Chain

/-- The chain that positions of children lead to from a chain. -/
def follow? (c : Chain) : List Nat → Option Chain
  | [] => some c
  | i :: is => (c.node.children[i]?).bind fun n => (c.down n).follow? is

/-- A chain that starts at the root of a tree and goes from each instance to one of its children. -/
def IsIn (c : Chain) (tree : Node) : Prop :=
  c.nodes.head? = some tree ∧ c.nodes.IsChain fun n child => child ∈ n.children

theorem nodes_down (c : Chain) (n : Node) : (c.down n).nodes = c.nodes ++ [n] := by
  simp [nodes, down]

theorem IsIn.down {c : Chain} {tree n : Node} (h : c.IsIn tree) (hn : n ∈ c.node.children) :
    (c.down n).IsIn tree := by
  obtain ⟨hhead, hchain⟩ := h
  rw [IsIn, nodes_down]
  constructor
  · rw [List.head?_append, hhead]
    rfl
  · refine hchain.append (List.isChain_singleton n) fun m hm child hchild => ?_
    rw [nodes, List.getLast?_concat] at hm
    obtain rfl := Option.some.inj hm
    obtain rfl := Option.some.inj hchild
    exact hn

theorem IsIn.follow? {c d : Chain} {tree : Node} {place : List Nat} (h : c.IsIn tree)
    (hd : c.follow? place = some d) : d.IsIn tree := by
  induction place generalizing c with
  | nil =>
    cases hd
    exact h
  | cons i is ih =>
    obtain ⟨n, hn, hd⟩ := Option.bind_eq_some_iff.1 hd
    exact ih (h.down (List.mem_of_getElem? hn)) hd

end Chain

namespace Node

/-- The chain from the root of a tree to a place. -/
def chainAt? (tree : Node) (place : List Nat) : Option Chain := (Chain.mk tree []).follow? place

theorem isIn_of_chainAt? {tree : Node} {place : List Nat} {c : Chain}
    (h : tree.chainAt? place = some c) : c.IsIn tree :=
  Chain.IsIn.follow? ⟨rfl, List.isChain_singleton tree⟩ h

mutual

/-- The places of a tree in order. -/
def places : Node → List (List Nat)
  | mk _ _ _ children => [] :: placesEach 0 children

/-- The places of neighbouring trees in order, the first of which stands at a position. -/
def placesEach : Nat → List Node → List (List Nat)
  | _, [] => []
  | k, n :: ns => n.places.map (k :: ·) ++ placesEach (k + 1) ns

end

theorem places_eq (n : Node) : n.places = [] :: placesEach 0 n.children := by
  cases n
  rw [places]
  rfl

theorem size_eq (n : Node) : n.size = 1 + sizes n.children := by
  cases n
  rw [size]
  rfl

/-- The places of trees start with positions from that of the first tree on. -/
theorem position_of_mem_placesEach {k : Nat} {ns : List Node} {place : List Nat}
    (h : place ∈ placesEach k ns) : ∃ i is, place = i :: is ∧ k ≤ i := by
  induction ns generalizing k with
  | nil =>
    rw [placesEach] at h
    contradiction
  | cons n ns ih =>
    rw [placesEach, List.mem_append] at h
    rcases h with h | h
    · obtain ⟨is, -, rfl⟩ := List.mem_map.1 h
      exact ⟨k, is, rfl, Nat.le_refl k⟩
    · obtain ⟨i, is, rfl, hi⟩ := ih h
      exact ⟨i, is, rfl, by omega⟩

mutual

/-- The places of a tree are listed in lexicographic order. -/
theorem pairwise_places : ∀ n : Node, n.places.Pairwise (· < ·)
  | mk name className paths children => by
    rw [places, List.pairwise_cons]
    refine ⟨fun place h => ?_, pairwise_placesEach 0 children⟩
    obtain ⟨i, is, rfl, -⟩ := position_of_mem_placesEach h
    exact List.nil_lt_cons i is

theorem pairwise_placesEach : ∀ (k : Nat) (ns : List Node), (placesEach k ns).Pairwise (· < ·)
  | k, [] => by
    rw [placesEach]
    exact List.Pairwise.nil
  | k, n :: ns => by
    rw [placesEach, List.pairwise_append, List.pairwise_map]
    refine ⟨(pairwise_places n).imp fun h => List.cons_lt_cons_iff.2 (.inr ⟨rfl, h⟩),
      pairwise_placesEach (k + 1) ns, fun place h place' h' => ?_⟩
    obtain ⟨is, -, rfl⟩ := List.mem_map.1 h
    obtain ⟨j, js, rfl, hj⟩ := position_of_mem_placesEach h'
    exact List.cons_lt_cons_iff.2 (.inl hj)

end

theorem mem_placesEach {k i : Nat} {ns : List Node} {n : Node} {is : List Nat}
    (hn : ns[i]? = some n) (his : is ∈ n.places) : (k + i) :: is ∈ placesEach k ns := by
  induction ns generalizing k i with
  | nil => simp at hn
  | cons m ns ih =>
    rw [placesEach, List.mem_append]
    cases i with
    | zero =>
      obtain rfl := Option.some.inj hn
      exact .inl (List.mem_map_of_mem his)
    | succ i =>
      have hmem := ih (k := k + 1) hn
      rw [Nat.add_assoc, Nat.add_comm 1] at hmem
      exact .inr hmem

/-- A place that leads somewhere is one of the places of the tree. -/
theorem mem_places_of_follow? {c d : Chain} {place : List Nat} (h : c.follow? place = some d) :
    place ∈ c.node.places := by
  induction place generalizing c with
  | nil =>
    rw [places_eq]
    exact List.mem_cons_self
  | cons i is ih =>
    obtain ⟨n, hn, hd⟩ := Option.bind_eq_some_iff.1 h
    have hmem := mem_placesEach (k := 0) hn (ih hd)
    rw [Nat.zero_add] at hmem
    rw [places_eq]
    exact List.mem_cons_of_mem _ hmem

end Node

/-! ## The search -/

namespace Chain

/-- A chain and those below it, in order. -/
def preorder (c : Chain) : List Chain := c.node.places.filterMap c.follow?

theorem mem_preorder_iff {c d : Chain} : d ∈ c.preorder ↔ ∃ place, c.follow? place = some d := by
  rw [preorder, List.mem_filterMap]
  constructor
  · rintro ⟨place, -, hd⟩
    exact ⟨place, hd⟩
  · rintro ⟨place, hd⟩
    exact ⟨place, Node.mem_places_of_follow? hd, hd⟩

theorem filterMap_placesEach {c : Chain} (before ns : List Node)
    (h : c.node.children = before ++ ns) :
    (Node.placesEach before.length ns).filterMap c.follow? =
      (ns.map c.down).flatMap preorder := by
  induction ns generalizing before with
  | nil =>
    rw [Node.placesEach]
    rfl
  | cons n ns ih =>
    have hn : c.node.children[before.length]? = some n := by simp [h]
    have hfollow : c.follow? ∘ (before.length :: ·) = (c.down n).follow? := by
      funext is
      simp [follow?, hn]
    have hothers := ih (before ++ [n]) (by simpa using h)
    rw [List.length_append, List.length_singleton] at hothers
    rw [Node.placesEach, List.filterMap_append, List.filterMap_map, hfollow, hothers]
    rfl

theorem preorder_eq (c : Chain) : c.preorder = c :: c.below.flatMap preorder := by
  have hbelow := filterMap_placesEach (c := c) [] c.node.children rfl
  rw [preorder, Node.places_eq, List.filterMap_cons]
  exact congrArg (c :: ·) hbelow

/-- The number of instances at some chains and below them. -/
def total (cs : List Chain) : Nat := (cs.map (·.node.size)).sum

theorem total_cons (c : Chain) (cs : List Chain) :
    total (c :: cs) = 1 + Node.sizes c.node.children + total cs := by
  rw [total, List.map_cons, List.sum_cons, Node.size_eq]
  rfl

theorem total_append (cs ds : List Chain) : total (cs ++ ds) = total cs + total ds := by
  rw [total, List.map_append, List.sum_append]
  rfl

theorem total_below (c : Chain) : total c.below = Node.sizes c.node.children := by
  have hsizes (ns : List Node) : total (ns.map c.down) = Node.sizes ns := by
    induction ns with
    | nil => rfl
    | cons n ns ih =>
      rw [Node.sizes, ← ih]
      rfl
  exact hsizes _

/-- With a look for each instance the search finds the first one that lists the file. -/
theorem search_eq {p : Path} {looks : Nat} {cs : List Chain} (h : total cs ≤ looks) :
    search p looks cs = (cs.flatMap preorder).find? (·.node.paths.contains p) := by
  induction looks generalizing cs with
  | zero =>
    cases cs with
    | nil => rfl
    | cons c cs =>
      rw [total_cons] at h
      omega
  | succ looks ih =>
    cases cs with
    | nil => rfl
    | cons c cs =>
      rw [search, List.flatMap_cons, preorder_eq, List.cons_append, List.find?_cons]
      cases c.node.paths.contains p with
      | true => rfl
      | false =>
        rw [total_cons, ← total_below] at h
        rw [← List.flatMap_append]
        exact ih (by
          rw [total_append]
          omega)

end Chain

/-! ## The owner -/

namespace Node

variable {tree : Node} {p : Path}

theorem owner?_eq_find? (tree : Node) (p : Path) :
    tree.owner? p = (Chain.preorder ⟨tree, []⟩).find? (·.node.paths.contains p) := by
  rw [owner?, Chain.search_eq (by simp [Chain.total]), List.flatMap_singleton]

/-- The owner of a file stands at a place that lists it, and no place before does. -/
theorem first_of_owner? {c : Chain} (h : tree.owner? p = some c) :
    ∃ place, tree.chainAt? place = some c ∧ p ∈ c.node.paths ∧
      ∀ place' < place, ∀ d, tree.chainAt? place' = some d → p ∉ d.node.paths := by
  rw [owner?_eq_find?, Chain.preorder, List.find?_filterMap] at h
  obtain ⟨place, hfind, hc⟩ := Option.bind_eq_some_iff.1 h
  obtain ⟨hlists, before, behind, hplaces, hbefore⟩ := List.find?_eq_some_iff_append.1 hfind
  rw [hc, Option.any_some, List.contains_iff_mem] at hlists
  refine ⟨place, hc, hlists, fun place' hlt d hd hlisted => ?_⟩
  have hsorted := pairwise_places tree
  have hmem := mem_places_of_follow? hd
  rw [chainAt?] at hd
  change tree.places = _ at hplaces
  rw [hplaces] at hmem hsorted
  rcases List.mem_append.1 hmem with hmem | hmem
  · have hnot := hbefore place' hmem
    rw [hd, Option.any_some, List.contains_iff_mem.2 hlisted] at hnot
    contradiction
  · rcases List.mem_cons.1 hmem with rfl | hmem
    · exact List.lt_irrefl place' hlt
    · have hbehind := (List.pairwise_append.1 hsorted).2.1
      exact List.lt_asymm hlt ((List.pairwise_cons.1 hbehind).1 place' hmem)

/-- A file has no owner exactly if no instance lists it. -/
theorem owner?_eq_none_iff :
    tree.owner? p = none ↔ ∀ place c, tree.chainAt? place = some c → p ∉ c.node.paths := by
  rw [owner?_eq_find?, List.find?_eq_none]
  constructor
  · intro h place c hc hlisted
    exact h c (Chain.mem_preorder_iff.2 ⟨place, hc⟩) (List.contains_iff_mem.2 hlisted)
  · intro h c hc hlisted
    obtain ⟨place, hc⟩ := Chain.mem_preorder_iff.1 hc
    exact h place c hc (List.contains_iff_mem.1 hlisted)

/-- The owner of a file stands at the first place that lists the file. -/
theorem owner?_eq_some_iff {c : Chain} :
    tree.owner? p = some c ↔ ∃ place, tree.chainAt? place = some c ∧ p ∈ c.node.paths ∧
      ∀ place' < place, ∀ d, tree.chainAt? place' = some d → p ∉ d.node.paths := by
  refine ⟨first_of_owner?, ?_⟩
  rintro ⟨place, hc, hlisted, hfirst⟩
  cases howner : tree.owner? p with
  | none => exact absurd hlisted (owner?_eq_none_iff.1 howner place c hc)
  | some c' =>
    obtain ⟨place', hc', hlisted', hfirst'⟩ := first_of_owner? howner
    have hle : ¬place < place' := fun hlt => hfirst' place hlt c hc hlisted
    have hge : ¬place' < place := fun hlt => hfirst place' hlt c' hc' hlisted'
    obtain rfl : place = place' := List.le_antisymm hge hle
    exact hc'.symm.trans hc

end Node

end TypedLinks
