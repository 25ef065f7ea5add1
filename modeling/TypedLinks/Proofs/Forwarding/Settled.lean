import TypedLinks.Proofs.Forwarding.Forwarded

/-!
# Declarations that forwarding keeps

A link file can itself be read and forwarded again. Forwarding keeps a list of declarations exactly
if each of them reads its own type out of the required module and has no default to lose. The first
pass produces such a list: it leaves the names that the scopes are made of where they are, so the
second pass looks at every default that is left in the scope in which it was kept.
-/

namespace TypedLinks

open Luau

/-! ## Parameters -/

namespace Parameter

variable {names : List Name} {p : Parameter}

theorem isDropped_eq_false_iff :
    p.isDropped names = false ↔ ∀ e, p.default = some e → e.type.isResolvable names = true := by
  unfold isDropped
  cases p.default <;> simp

/-- What is left of a parameter has no default to lose. -/
@[simp] theorem isDropped_forward (names : List Name) (p : Parameter) :
    (p.forward names).isDropped names = false := by
  rw [isDropped_eq_false_iff]
  intro e he
  exact (default_forward_eq_some_iff.1 he).2

theorem forward_eq_self_iff : p.forward names = p ↔ p.isDropped names = false := by
  constructor
  · intro h
    rw [← h]
    exact isDropped_forward names p
  · intro h
    rw [forward, h, if_neg Bool.false_ne_true]

end Parameter

/-! ## Declarations -/

namespace Declaration

variable {names : List Name} {d : Declaration}

/-- Whether a declaration reads the type of its own name out of the required module, applied to its
own parameters, and mentions in its defaults only the given names. -/
structure IsForwarded (names : List Name) (d : Declaration) : Prop where
  keeps : ∀ p ∈ d.parameters, p.isDropped names = false
  body : d.body =
    moduleBinding ++ ".".toList ++ d.name ++ angled (d.parameters.map Parameter.reference)

theorem isForwarded_forward (names : List Name) (d : Declaration) :
    (d.forward names).IsForwarded names where
  keeps := by
    intro p hp
    rw [parameters_forward] at hp
    obtain ⟨q, -, rfl⟩ := List.mem_map.1 hp
    exact Parameter.isDropped_forward names q
  body := by
    rw [parameters_forward, List.map_map, name_forward]
    simp only [Function.comp_def, Parameter.reference_forward]
    rfl

theorem forward_eq_self_iff : d.forward names = d ↔ d.IsForwarded names := by
  constructor
  · intro h
    rw [← h]
    exact isForwarded_forward names d
  · intro h
    have hgenerics : d.generics.map (·.map (Parameter.forward names)) = d.generics := by
      cases hg : d.generics with
      | none => rfl
      | some ps =>
        have hps : ps.map (Parameter.forward names) = ps := by
          apply (List.map_congr_left _).trans ps.map_id
          intro p hp
          apply Parameter.forward_eq_self_iff.2
          apply h.keeps
          rw [parameters, hg]
          exact hp
        rw [Option.map_some, hps]
    rw [forward, hgenerics, ← h.body]

end Declaration

/-! ## Scopes -/

/-- A scope is made of names, none of which forwarding touches. -/
theorem scope_forward (earlier : List Declaration) (names : List Name) (d : Declaration) :
    scope earlier (d.forward names) = scope earlier d := by
  rw [scope, scope, Declaration.parameters_forward, List.map_map, Declaration.name_forward]
  simp only [Function.comp_def, Parameter.name_forward]

theorem scope_take_forwardAll (ds : List Declaration) (k : Nat) (d : Declaration) :
    scope ((forwardAll ds).take k) d = scope (ds.take k) d := by
  rw [scope, scope, List.map_take, names_forwardAll, ← List.map_take]

/-! ## Modules -/

/-- Forwarding keeps exactly the lists in which each declaration is forwarded already. -/
theorem forwardAll_eq_self_iff {ds : List Declaration} :
    forwardAll ds = ds ↔
      ∀ (k : Nat) (d : Declaration), ds[k]? = some d → d.IsForwarded (scope (ds.take k) d) := by
  constructor
  · intro h k d hd
    apply Declaration.forward_eq_self_iff.1
    have hk := getElem?_forwardAll ds k
    rw [h, hd] at hk
    exact (Option.some.inj hk).symm
  · intro h
    apply List.ext_getElem?
    intro k
    rw [getElem?_forwardAll]
    cases hd : ds[k]? with
    | none => rfl
    | some d => rw [Option.map_some, Declaration.forward_eq_self_iff.2 (h k d hd)]

theorem isForwarded_of_forwardAll {ds : List Declaration} {k : Nat} {d : Declaration}
    (h : (forwardAll ds)[k]? = some d) : d.IsForwarded (scope ((forwardAll ds).take k) d) := by
  rw [getElem?_forwardAll] at h
  obtain ⟨e, -, rfl⟩ := Option.map_eq_some_iff.1 h
  rw [scope_take_forwardAll, scope_forward]
  exact Declaration.isForwarded_forward _ e

/-- **Forwarding is idempotent**: forwarding what has been forwarded changes nothing. -/
theorem forwardAll_forwardAll (ds : List Declaration) :
    forwardAll (forwardAll ds) = forwardAll ds :=
  forwardAll_eq_self_iff.2 fun _ _ => isForwarded_of_forwardAll

end TypedLinks
