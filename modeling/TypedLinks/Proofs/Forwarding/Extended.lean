import Mathlib.Data.List.NodupEquivFin
import TypedLinks.Proofs.Forwarding.Forwarded
import TypedLinks.Proofs.Forwarding.FreeNames

/-!
# Modules that export more types

Types that a module exports in addition only widen the scopes of those it exported before: a default
that was forwarded still is. Types that come after a declaration do not change how it is forwarded.

The lists are compared place by place. An embedding of the places of one list into those of another,
under which both have the same declarations, is a choice of a subsequence
(`List.sublist_iff_exists_orderEmbedding_getElem?_eq`); it takes the places beyond the end of the
first list beyond the end of the second.
-/

namespace TypedLinks

open Luau

/-! ## Wider scopes -/

/-- A parameter keeps another: it is the same parameter, with its default if it has one. -/
structure Parameter.Keeps (q p : Parameter) : Prop where
  name : q.name = p.name
  variadic : q.variadic = p.variadic
  default : ∀ e, p.default = some e → q.default = some e

/-- A declaration keeps another: it has the same name, body and parameters, with the defaults of the
other. -/
structure Declaration.Keeps (d' d : Declaration) : Prop where
  name : d'.name = d.name
  body : d'.body = d.body
  generics : Option.Rel (List.Forall₂ Parameter.Keeps) d'.generics d.generics

variable {names names' : List Name}

theorem Parameter.forward_keeps (h : names ⊆ names') (p : Parameter) :
    (p.forward names').Keeps (p.forward names) where
  name := by simp
  variadic := by simp
  default := by
    intro e he
    obtain ⟨hdefault, hresolvable⟩ := default_forward_eq_some_iff.1 he
    exact default_forward_eq_some_iff.2 ⟨hdefault, TypeNode.isResolvable_mono h hresolvable⟩

theorem Declaration.forward_keeps (h : names ⊆ names') (d : Declaration) :
    (d.forward names').Keeps (d.forward names) where
  name := by simp
  body := rfl
  generics := by
    unfold forward
    cases d.generics with
    | none => exact .none
    | some ps =>
      refine .some ?_
      rw [List.forall₂_map_left_iff, List.forall₂_map_right_iff, List.forall₂_same]
      intro p _
      exact p.forward_keeps h

theorem scope_mono {earlier earlier' : List Declaration} (h : earlier ⊆ earlier')
    (d : Declaration) : scope earlier d ⊆ scope earlier' d := by
  have hnames := List.map_subset (·.name) h
  unfold scope
  intro n hn
  simp only [List.mem_append] at hn ⊢
  have := @hnames n
  tauto

/-! ## Places -/

variable {ds es : List Declaration} {place : ℕ ↪o ℕ}

/-- What stands before a place stands before its image, in the same order. -/
theorem take_sublist (h : ∀ k, ds[k]? = es[place k]?) (k : ℕ) :
    List.Sublist (ds.take k) (es.take (place k)) := by
  rw [List.sublist_iff_exists_orderEmbedding_getElem?_eq]
  refine ⟨place, fun i => ?_⟩
  simp only [List.getElem?_take, h i, place.lt_iff_lt]

/-- If a place is its own image, nothing was inserted before it. -/
theorem take_eq_of_fixed (h : ∀ k, ds[k]? = es[place k]?) {k : ℕ} (hk : k < ds.length)
    (hfixed : place k = k) : ds.take k = es.take k := by
  have hplace : k < es.length := by
    rw [← hfixed]
    by_contra hout
    rw [not_lt, ← List.getElem?_eq_none_iff, ← h k, List.getElem?_eq_none_iff] at hout
    exact absurd hk (not_lt.2 hout)
  have hsublist := take_sublist h k
  rw [hfixed] at hsublist
  apply hsublist.eq_of_length
  rw [List.length_take_of_le hk.le, List.length_take_of_le hplace.le]

/-! ## Forwarding -/

/-- With more declarations, each declaration is forwarded with the defaults that it was forwarded
with before; if no declaration was inserted before it, it is forwarded as before. -/
theorem forwardAll_keeps (h : ∀ k, ds[k]? = es[place k]?) {k : ℕ} {d : Declaration}
    (hd : ds[k]? = some d) :
    ∃ f f', (forwardAll ds)[k]? = some f ∧ (forwardAll es)[place k]? = some f' ∧ f'.Keeps f ∧
      (place k = k → f' = f) := by
  refine ⟨d.forward (scope (ds.take k) d), d.forward (scope (es.take (place k)) d), ?_, ?_, ?_, ?_⟩
  · rw [getElem?_forwardAll, hd, Option.map_some]
  · rw [getElem?_forwardAll, ← h k, hd, Option.map_some]
  · exact d.forward_keeps (scope_mono (take_sublist h k).subset d)
  · intro hfixed
    obtain ⟨hk, -⟩ := List.getElem?_eq_some_iff.1 hd
    rw [hfixed, take_eq_of_fixed h hk hfixed]

/-- Two types, the second with parameters whose defaults are the first and an unknown one. -/
def twoExports : List Declaration :=
  let default (name : Name) : DefaultType := ⟨.reference ⟨.start, .start⟩ none name [], name⟩
  [⟨['A'], none, ['A']⟩,
    ⟨['C'], some [⟨['T'], false, some (default ['A'])⟩, ⟨['U'], true, some (default ['B'])⟩], ['T']⟩]

/-- The same types with the missing one between them and another one behind. -/
def fourExports : List Declaration :=
  twoExports.take 1 ++ [⟨['B'], none, ['B']⟩] ++ twoExports.drop 1 ++ [⟨['D'], none, ['D']⟩]

/-- The places of the two types among the four. -/
def fourPlaces : ℕ ↪o ℕ :=
  OrderEmbedding.ofStrictMono (fun k => if k = 0 then 0 else if k = 1 then 2 else k + 2) (by
    intro a b hab
    dsimp only
    split_ifs <;> omega)

theorem places_fourExports (k : ℕ) : twoExports[k]? = fourExports[fourPlaces k]? := by
  match k with
  | 0 | 1 => rfl
  | k + 2 => exact (List.getElem?_eq_none (Nat.le_add_left 4 k)).symm

/-- The default that becomes visible is forwarded together with the other one. -/
theorem forwardAll_keeps_fourExports :
    ∃ f f' : Declaration, (forwardAll twoExports)[1]? = some f ∧
      (forwardAll fourExports)[2]? = some f' ∧ f'.Keeps f ∧
      f.parameters.map (·.default.isSome) = [true, false] ∧
      f'.parameters.map (·.default.isSome) = [true, true] := by
  obtain ⟨f, f', hf, hf', hkeeps, -⟩ := forwardAll_keeps (k := 1) places_fourExports rfl
  refine ⟨f, f', hf, hf', hkeeps, ?_⟩
  cases hf
  cases hf'
  decide

end TypedLinks
