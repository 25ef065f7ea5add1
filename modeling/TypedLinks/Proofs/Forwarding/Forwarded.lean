import TypedLinks.Forwarding.Forward

/-!
# Forwarded declarations

What forwarding keeps of the declarations of a module: everything apart from their bodies and the
defaults that mention a name outside the scope.
-/

namespace TypedLinks

open Luau

/-! ## Parameters -/

namespace Parameter

variable {names : List Name} {p : Parameter} {e : DefaultType}

@[simp] theorem name_forward (names : List Name) (p : Parameter) :
    (p.forward names).name = p.name := by
  unfold forward
  split <;> rfl

@[simp] theorem variadic_forward (names : List Name) (p : Parameter) :
    (p.forward names).variadic = p.variadic := by
  unfold forward
  split <;> rfl

@[simp] theorem reference_forward (names : List Name) (p : Parameter) :
    (p.forward names).reference = p.reference := by
  simp [reference]

/-- A default is kept as it is, or it is dropped. -/
theorem default_forward_eq_some_iff :
    (p.forward names).default = some e ↔
      p.default = some e ∧ e.type.isResolvable names = true := by
  unfold forward isDropped
  cases h : p.default with
  | none => simp [h]
  | some d =>
    cases hd : d.type.isResolvable names with
    | true =>
      simp only [Option.any_some, hd, Bool.not_true, Bool.false_eq_true, if_false, h,
        Option.some.injEq]
      exact ⟨fun h => ⟨h, by rw [← h]; exact hd⟩, And.left⟩
    | false =>
      simp only [Option.any_some, hd, Bool.not_false, if_true, reduceCtorEq, Option.some.injEq,
        false_iff, not_and]
      rintro rfl
      simp [hd]

end Parameter

/-! ## Declarations -/

namespace Declaration

@[simp] theorem name_forward (names : List Name) (d : Declaration) :
    (d.forward names).name = d.name := rfl

@[simp] theorem parameters_forward (names : List Name) (d : Declaration) :
    (d.forward names).parameters = d.parameters.map (Parameter.forward names) := by
  unfold parameters forward
  cases d.generics <;> rfl

end Declaration

theorem getElem?_forwardAfter (earlier ds : List Declaration) (k : Nat) :
    (forwardAfter earlier ds)[k]? =
      ds[k]?.map fun d => d.forward (scope (earlier ++ ds.take k) d) := by
  induction ds generalizing earlier k with
  | nil => rfl
  | cons d ds ih =>
    cases k with
    | zero => simp [forwardAfter]
    | succ k =>
      rw [forwardAfter, List.getElem?_cons_succ, ih, List.getElem?_cons_succ, List.take_succ_cons,
        List.append_assoc]
      rfl

/-- Each declaration is forwarded in the scope of those before it. -/
theorem getElem?_forwardAll (ds : List Declaration) (k : Nat) :
    (forwardAll ds)[k]? = ds[k]?.map fun d => d.forward (scope (ds.take k) d) :=
  getElem?_forwardAfter [] ds k

theorem names_forwardAfter (earlier ds : List Declaration) :
    (forwardAfter earlier ds).map (·.name) = ds.map (·.name) := by
  induction ds generalizing earlier with
  | nil => rfl
  | cons d ds ih => rw [forwardAfter, List.map_cons, List.map_cons, ih, Declaration.name_forward]

@[simp] theorem names_forwardAll (ds : List Declaration) :
    (forwardAll ds).map (·.name) = ds.map (·.name) :=
  names_forwardAfter [] ds

end TypedLinks
