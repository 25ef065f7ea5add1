import Mathlib.Logic.Basic
import TypedLinks.Forwarding.Scope

/-!
# Free names

The names that occur free in a type: those it mentions apart from those that function types bind
around the mention. The scope check goes down a type and widens the scope at each function type; the
free names are gathered on the way up, and a function type takes its own away.
-/

namespace TypedLinks.Luau.TypeNode

/-! ## Nodes of a type -/

/-- A property of types holds if it passes from the parts of a type to the type. -/
theorem induction_parts {P : TypeNode → Prop} (step : ∀ t, (∀ p ∈ t.parts, P p) → P t)
    (t : TypeNode) : P t := by
  have hnil : ∀ p ∈ ([] : List TypeNode), P p := fun _ h => nomatch h
  refine TypeNode.rec (motive_2 := fun ts => ∀ p ∈ ts, P p) (fun _ _ _ _ ih => step _ ih)
    (fun _ _ => step _ hnil) (fun _ _ => step _ hnil) (fun _ _ _ _ ihs ih => step _ ?_)
    (fun _ _ _ ih => step _ ih) hnil (fun _ _ ih ihs => ?_) t
  · intro p hp
    rcases List.mem_append.1 hp with hp | hp
    · exact ihs p hp
    · exact List.mem_singleton.1 hp ▸ ih
  · intro p hp
    rcases List.mem_cons.1 hp with rfl | hp
    · exact ih
    · exact ihs p hp

/-- A type is a node of another: the type itself, or a node of one of its parts. -/
inductive NodeOf (u : TypeNode) : TypeNode → Prop
  | refl : NodeOf u u
  | part {t p : TypeNode} (hp : p ∈ t.parts) (h : NodeOf u p) : NodeOf u t

theorem forall_nodeOf_iff {P : TypeNode → Prop} {t : TypeNode} :
    (∀ u, NodeOf u t → P u) ↔ P t ∧ ∀ p ∈ t.parts, ∀ u, NodeOf u p → P u := by
  constructor
  · exact fun h => ⟨h t .refl, fun p hp u hu => h u (.part hp hu)⟩
  · rintro ⟨ht, hparts⟩ u (_ | ⟨hp, hu⟩)
    · exact ht
    · exact hparts _ hp u hu

/-- Whether a type belongs to the scope of a module: it is taken from one, or it is the type of an
expression. -/
def isForeign : TypeNode → Bool
  | reference _ module _ _ => module.isSome
  | typeof .. => true
  | _ => false

/-! ## Free names -/

mutual

/-- The names that occur free in a type. -/
def freeNames : TypeNode → List Name
  | reference _ _ name arguments => name :: freeNamesOf arguments
  | packReference _ name => [name]
  | typeof .. => []
  | function _ generics parameters returns =>
    (freeNamesOf parameters ++ returns.freeNames).filter (!generics.contains ·)
  | composite _ _ parts => freeNamesOf parts

/-- The names that occur free in some types. -/
def freeNamesOf : List TypeNode → List Name
  | [] => []
  | t :: ts => t.freeNames ++ freeNamesOf ts

end

/-! ## A node and its parts -/

/-- The name that a type is written with. -/
def ownName? : TypeNode → Option Name
  | reference _ _ name _ | packReference _ name => some name
  | _ => none

/-- The names that a type binds in its parts. -/
def boundNames : TypeNode → List Name
  | function _ generics _ _ => generics
  | _ => []

variable {names : List Name}

theorem allResolvable_eq_true_iff {types : List TypeNode} :
    allResolvable names types = true ↔ ∀ t ∈ types, t.isResolvable names = true := by
  induction types with
  | nil => simp [allResolvable]
  | cons t types ih => simp [allResolvable, ih]

theorem mem_freeNamesOf {types : List TypeNode} {n : Name} :
    n ∈ freeNamesOf types ↔ ∃ t ∈ types, n ∈ t.freeNames := by
  induction types with
  | nil => simp [freeNamesOf]
  | cons t types ih => simp [freeNamesOf, ih]

/-- A type is resolvable if it does not belong to a module, its own name is visible, and its parts
are resolvable once the names that it binds are visible too. -/
theorem isResolvable_iff_parts {t : TypeNode} :
    t.isResolvable names = true ↔ t.isForeign = false ∧ (∀ n ∈ t.ownName?, n ∈ names) ∧
      ∀ p ∈ t.parts, p.isResolvable (names ++ t.boundNames) = true := by
  cases t with
  | reference span module name arguments =>
    simp [isResolvable, isForeign, ownName?, boundNames, parts, allResolvable_eq_true_iff,
      and_assoc]
  | packReference span name => simp [isResolvable, isForeign, ownName?, parts]
  | typeof span expression => simp [isResolvable, isForeign]
  | function span generics parameters returns =>
    simp [isResolvable, isForeign, ownName?, boundNames, parts, allResolvable_eq_true_iff,
      or_imp, forall_and]
  | composite span kind parts =>
    simp [isResolvable, isForeign, ownName?, boundNames, TypeNode.parts, allResolvable_eq_true_iff]

/-- A name is free in a type if the type is written with it, or if it is free in a part and the type
does not bind it. -/
theorem mem_freeNames_iff_parts {t : TypeNode} {n : Name} :
    n ∈ t.freeNames ↔ n ∈ t.ownName? ∨ n ∉ t.boundNames ∧ ∃ p ∈ t.parts, n ∈ p.freeNames := by
  cases t with
  | reference span module name arguments =>
    simp [freeNames, ownName?, boundNames, parts, mem_freeNamesOf, eq_comm]
  | packReference span name => simp [freeNames, ownName?, parts, eq_comm]
  | typeof span expression => simp [freeNames, ownName?, parts]
  | function span generics parameters returns =>
    simp only [freeNames, ownName?, boundNames, parts, List.mem_filter, List.mem_append,
      mem_freeNamesOf, List.mem_singleton, Bool.not_eq_true', List.contains_eq_mem,
      decide_eq_false_iff_not, Option.mem_def, reduceCtorEq, false_or, or_and_right, exists_or,
      exists_eq_left]
    exact or_and_right.symm.trans and_comm
  | composite span kind parts =>
    simp [freeNames, ownName?, boundNames, TypeNode.parts, mem_freeNamesOf]

/-! ## The scope check -/

/-- A type that is resolvable stays so if more names become visible. -/
theorem isResolvable_mono {names' : List Name} (h : names ⊆ names') {t : TypeNode}
    (ht : t.isResolvable names = true) : t.isResolvable names' = true := by
  induction t using induction_parts generalizing names names' with
  | step t ih =>
    obtain ⟨hforeign, hown, hparts⟩ := isResolvable_iff_parts.1 ht
    refine isResolvable_iff_parts.2 ⟨hforeign, fun n hn => h (hown n hn), fun p hp => ?_⟩
    exact ih p hp (List.append_subset.2 ⟨List.subset_append_of_subset_left _ h,
      List.subset_append_right _ _⟩) (hparts p hp)

/-- The free names of a type are visible exactly if its own name is, and in each part the free names
are visible or bound. -/
theorem freeNames_subset_iff {t : TypeNode} :
    t.freeNames ⊆ names ↔ (∀ n ∈ t.ownName?, n ∈ names) ∧
      ∀ p ∈ t.parts, p.freeNames ⊆ names ++ t.boundNames := by
  constructor
  · intro h
    refine ⟨fun n hn => h (mem_freeNames_iff_parts.2 (.inl hn)), fun p hp n hn => ?_⟩
    rw [List.mem_append]
    by_cases hbound : n ∈ t.boundNames
    · exact .inr hbound
    · exact .inl (h (mem_freeNames_iff_parts.2 (.inr ⟨hbound, p, hp, hn⟩)))
  · rintro ⟨hown, hparts⟩ n hn
    rcases mem_freeNames_iff_parts.1 hn with hn | ⟨hbound, p, hp, hn⟩
    · exact hown n hn
    · exact (List.mem_append.1 (hparts p hp hn)).resolve_right hbound

/-- A type is resolvable exactly if no node of it belongs to a module and its free names are
visible. -/
theorem isResolvable_iff_freeNames (t : TypeNode) (names : List Name) :
    t.isResolvable names = true ↔
      (∀ u, NodeOf u t → u.isForeign = false) ∧ t.freeNames ⊆ names := by
  induction t using induction_parts generalizing names with
  | step t ih =>
    calc t.isResolvable names = true
      _ ↔ t.isForeign = false ∧ (∀ n ∈ t.ownName?, n ∈ names) ∧ ∀ p ∈ t.parts,
            (∀ u, NodeOf u p → u.isForeign = false) ∧ p.freeNames ⊆ names ++ t.boundNames := by
          rw [isResolvable_iff_parts]
          exact and_congr_right' (and_congr_right' (forall₂_congr fun p hp => ih p hp _))
      _ ↔ (t.isForeign = false ∧ ∀ p ∈ t.parts, ∀ u, NodeOf u p → u.isForeign = false) ∧
            (∀ n ∈ t.ownName?, n ∈ names) ∧
              ∀ p ∈ t.parts, p.freeNames ⊆ names ++ t.boundNames := by
          simp only [imp_and, forall_and]
          exact ⟨fun ⟨h, hown, hparts, hfree⟩ => ⟨⟨h, hparts⟩, hown, hfree⟩,
            fun ⟨⟨h, hparts⟩, hown, hfree⟩ => ⟨h, hown, hparts, hfree⟩⟩
      _ ↔ (∀ u, NodeOf u t → u.isForeign = false) ∧ t.freeNames ⊆ names := by
          rw [forall_nodeOf_iff, freeNames_subset_iff]

/-- A function type hides a name of the scope that it binds again, whether it is used as a type or
as a pack. -/
example (s : Span) (T U : Name) (h : U ≠ T) :
    (function s [T] [reference s none T [], packReference s U] (packReference s T)).freeNames =
      [U] := by
  simp [freeNames, freeNamesOf, h]

end TypedLinks.Luau.TypeNode
