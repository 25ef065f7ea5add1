import TypedLinks.Proofs.Forwarding.Forwarded
import TypedLinks.Proofs.Forwarding.Mentions

/-!
# Visible defaults

A default that is forwarded mentions visible names only, apart from what stands in the generic
parameters of a function type: these the scope check does not look at, so a default of theirs may
mention a name that a link file cannot see.
-/

namespace TypedLinks

open Luau

/-! ## Trees of exported parameters -/

namespace Luau.Tree

/-- The generic parameters of a declaration are those that its trees declare. -/
theorem parameters_of_declaration {T : Tree} {d : TypeDeclaration} (h : IsDeclaration T d) :
    List.Forall₂ IsParameter T.declaredParameters (d.generics.getD []) := by
  obtain ⟨mark, kw, n, list, e, body, rfl, hmark, -, -, -, hbody, -, hlist⟩ := h.cases
  obtain ⟨l, us, rfl⟩ := symbol_eq_category_iff.1 hbody
  have hparameters : (node .statement .typeDeclaration
      (mark ++ leaf kw :: leaf n :: (list ++ [leaf e, node .type l us]))).declaredParameters =
      list.flatMap Tree.parameters := by
    have hmark' : mark.flatMap Tree.parameters = [] := by
      rcases hmark with ⟨rfl, -⟩ | ⟨⟨x, rfl, -⟩, -⟩ <;> rfl
    have hlast : [leaf e, node .type l us].flatMap Tree.parameters = [] := rfl
    rw [declaredParameters, List.flatMap_append, List.flatMap_cons, List.flatMap_cons,
      List.flatMap_append, hmark', hlast, List.append_nil]
    rfl
  rw [hparameters]
  rcases hlist with ⟨rfl, -, hnone⟩ | ⟨gs, hgs, hforall, -⟩
  · rw [hnone]
    exact .nil
  · rw [hgs]
    exact hforall

end Luau.Tree

/-- An exported parameter with a default stands in the parse tree of the source, with the tree of
its default. -/
theorem Luau.ReadsBlock.default {file : Text} {source : List Char} {ts : List Tree}
    {own : List Part} (h : ReadsBlock source ts own) {k l : Nat} {d : Declaration} {p : Parameter}
    {e : DefaultType} (hd : (chunkOf file source own).exports[k]? = some d)
    (hp : d.parameters[l]? = some p) (he : p.default = some e) :
    ∃ T P D, (Tree.node .chunk .spliced [.node .block .block ts]).exportTrees[k]? = some T ∧
      T.declaredParameters[l]? = some P ∧ P.default? = some D ∧ D.WellFormed ∧
      D.symbol = .category .typeOrPack ∧ D.parts = .ok ([.type e.type], some e.type.span) ∧
      e.text = e.type.span.text source := by
  obtain ⟨T, hT, t, ht, rfl⟩ := exists_getElem?_of_forall₂ h.exports hd
  have hparameters : (Declaration.ofSyntax source t).parameters =
      (t.generics.getD []).map (Parameter.ofSyntax source) := by
    unfold Declaration.parameters Declaration.ofSyntax
    cases t.generics <;> rfl
  rw [hparameters, List.getElem?_map, Option.map_eq_some_iff] at hp
  obtain ⟨g, hg, rfl⟩ := hp
  obtain ⟨P, hP, hPg⟩ := exists_getElem?_of_forall₂ (Tree.parameters_of_declaration ht) hg
  obtain ⟨ty, hty, rfl⟩ := Option.map_eq_some_iff.1 he
  obtain ⟨l, n, dots, default, rfl, -, -, hdots, hdefault⟩ := hPg.cases
  rcases hdefault with ⟨-, hnone⟩ | ⟨e, D, ty', rfl, -, hD, hwell, hsome, hparts⟩
  · rw [hnone] at hty
    contradiction
  · obtain rfl := Option.some.inj (hsome.symm.trans hty)
    refine ⟨T, _, D, hT, hP, ?_, hwell, hD, hparts, rfl⟩
    obtain ⟨l, us, rfl⟩ := Tree.symbol_eq_category_iff.1 hD
    rcases hdots with ⟨-, rfl, -⟩ | ⟨-, ⟨x, rfl, -⟩, -⟩ <;> rfl

/-! ## Visible mentions -/

/-- The names that a default of an exported declaration may mention in a link file: the built-in
ones, the boolean values, the parameters of the declaration, and the names of the declaration and of
those before it. -/
def visibleNames (ds : List Declaration) (k : Nat) (d : Declaration) : List Name :=
  builtinNames ++ booleanNames ++ d.parameters.map (·.name) ++ (ds.take (k + 1)).map (·.name)

theorem mem_scope_iff {ds : List Declaration} {k : Nat} {d : Declaration} (hd : ds[k]? = some d)
    {names : List Name} {n : Name} :
    n ∈ scope (ds.take k) d ↔ n ∈ visibleNames (forwardAll ds) k (d.forward names) := by
  have hnames : ((forwardAll ds).take (k + 1)).map (·.name) =
      (ds.take k).map (·.name) ++ [d.name] := by
    rw [List.map_take, names_forwardAll, List.take_add_one, List.getElem?_map, hd, List.map_take]
    rfl
  have hparameters : (d.forward names).parameters.map (·.name) = d.parameters.map (·.name) := by
    simp [Function.comp_def]
  simp only [scope, visibleNames, hnames, hparameters, List.mem_append]
  tauto

theorem Mention.isVisible_congr {names names' : List Name} (h : ∀ n, n ∈ names ↔ n ∈ names')
    (m : Mention) : m.isVisible names = m.isVisible names' := by
  unfold Mention.isVisible
  split
  · rw [Bool.eq_iff_iff, List.contains_iff_mem, List.contains_iff_mem, List.mem_append,
      List.mem_append, h]
  · rfl

/-- A default that is forwarded stands in the source, and every name in it is visible from the link
file exactly if every name is that stands in the generic parameters of a function type. -/
theorem kept_default_visible_iff {file : Text} {source : List Char} {chunk : Chunk} {tree : Tree}
    (hchunk : parse file source = .ok chunk) (htree : parseTree source = .ok tree) {k l : Nat}
    {d : Declaration} (hd : (forwardAll chunk.exports)[k]? = some d) {p : Parameter}
    (hp : d.parameters[l]? = some p) {e : DefaultType} (he : p.default = some e) :
    ∃ T P D, tree.exportTrees[k]? = some T ∧ T.declaredParameters[l]? = some P ∧
      P.default? = some D ∧ D.parts = .ok ([.type e.type], some e.type.span) ∧
      e.text = e.type.span.text source ∧
      ((∀ m ∈ D.mentions [] false, m.isVisible (visibleNames (forwardAll chunk.exports) k d)) ↔
        ∀ m ∈ D.mentions [] false, m.listed →
          m.isVisible (visibleNames (forwardAll chunk.exports) k d)) := by
  obtain ⟨ts, own, hreads, -, rfl⟩ := parse_eq_ok_iff.1 hchunk
  obtain rfl := Except.ok.inj (hreads.parseTree.symm.trans htree)
  rw [getElem?_forwardAll, Option.map_eq_some_iff] at hd
  obtain ⟨d, hd, rfl⟩ := hd
  rw [Declaration.parameters_forward, List.getElem?_map, Option.map_eq_some_iff] at hp
  obtain ⟨p, hp, rfl⟩ := hp
  obtain ⟨he, hresolvable⟩ := Parameter.default_forward_eq_some_iff.1 he
  obtain ⟨T, P, D, hT, hP, hD, hwell, hsymbol, hparts, htext⟩ := hreads.default hd hp he
  refine ⟨T, P, D, hT, hP, hD, hparts, htext, fun h m hm _ => h m hm, fun h m hm => ?_⟩
  have hpasses := (Tree.isResolvable_iff hwell (by rw [hsymbol]; rfl) hparts
    (scope ((chunkOf file source own).exports.take k) d) []).1
      (by simpa [Part.isResolvable] using hresolvable) m hm
  rcases hpasses with hlisted | hvisible
  · exact h m hm hlisted
  · rwa [← Mention.isVisible_congr fun n => mem_scope_iff hd]

/-! ## Two modules -/

/-- A module with a default whose nested parameter has a visible default. -/
def visibleDefault : List Char := "export type A<T = <B = number>(B, A) -> ()> = T".toList

theorem kept_default_visible :
    ∃ (chunk : Chunk) (tree : Tree) (d : Declaration) (p : Parameter) (e : DefaultType),
      parse "m" visibleDefault = .ok chunk ∧
      parseTree visibleDefault = .ok tree ∧ (forwardAll chunk.exports)[0]? = some d ∧
      d.parameters[0]? = some p ∧ p.default = some e ∧
      ∃ T P D : Tree, tree.exportTrees[0]? = some T ∧ T.declaredParameters[0]? = some P ∧
        P.default? = some D ∧ D.parts = .ok ([.type e.type], some e.type.span) ∧
        e.text = e.type.span.text visibleDefault ∧
        ((∀ m ∈ D.mentions [] false, m.isVisible (visibleNames (forwardAll chunk.exports) 0 d)) ↔
          ∀ m ∈ D.mentions [] false, m.listed →
            m.isVisible (visibleNames (forwardAll chunk.exports) 0 d)) := by
  have hrun : (parse "m" visibleDefault).toOption.any (fun chunk =>
      (parseTree visibleDefault).toOption.any fun _ =>
        (forwardAll chunk.exports)[0]?.any fun d =>
          d.parameters[0]?.any fun p => p.default.isSome) = true := by
    unfold visibleDefault
    rw [String.toList_ofList]
    decide +kernel
  obtain ⟨chunk, hchunk, hrun⟩ := exists_ok_of_any hrun
  obtain ⟨tree, htree, hrun⟩ := exists_ok_of_any hrun
  obtain ⟨d, hd, hrun⟩ := (Option.any_eq_true _ _).1 hrun
  obtain ⟨p, hp, hrun⟩ := (Option.any_eq_true _ _).1 hrun
  obtain ⟨e, he⟩ := Option.isSome_iff_exists.1 hrun
  exact ⟨chunk, tree, d, p, e, hchunk, htree, hd, hp, he,
    kept_default_visible_iff hchunk htree hd hp he⟩

/-- A module with a default whose nested parameter has a default of a type of the module. -/
def hiddenDefault : List Char :=
  "type Hidden = number\nexport type A<T = <B = Hidden>(B) -> ()> = T".toList

/-- A default is forwarded that mentions a name which the link file cannot see. -/
theorem hidden_default_kept :
    ∃ (chunk : Chunk) (tree : Tree) (d : Declaration) (p : Parameter),
      parse "m" hiddenDefault = .ok chunk ∧
      parseTree hiddenDefault = .ok tree ∧ (forwardAll chunk.exports)[0]? = some d ∧
      d.parameters[0]? = some p ∧ p.default.isSome ∧
      ∃ T P D : Tree, tree.exportTrees[0]? = some T ∧ T.declaredParameters[0]? = some P ∧
        P.default? = some D ∧ ∃ m ∈ D.mentions [] false, m.what = .name "Hidden".toList ∧
          m.isVisible (visibleNames (forwardAll chunk.exports) 0 d) = false := by
  have hrun : (parse "m" hiddenDefault).toOption.any (fun chunk =>
      (parseTree hiddenDefault).toOption.any fun tree =>
        (forwardAll chunk.exports)[0]?.any fun d => d.parameters[0]?.any fun p =>
          p.default.isSome && tree.exportTrees[0]?.any fun T =>
            T.declaredParameters[0]?.any fun P => P.default?.any fun D =>
              (D.mentions [] false).any fun m => m.what = .name "Hidden".toList &&
                !m.isVisible (visibleNames (forwardAll chunk.exports) 0 d)) = true := by
    unfold hiddenDefault
    rw [String.toList_ofList]
    decide +kernel
  obtain ⟨chunk, hchunk, hrun⟩ := exists_ok_of_any hrun
  obtain ⟨tree, htree, hrun⟩ := exists_ok_of_any hrun
  obtain ⟨d, hd, hrun⟩ := (Option.any_eq_true _ _).1 hrun
  obtain ⟨p, hp, hrun⟩ := (Option.any_eq_true _ _).1 hrun
  obtain ⟨hkept, hrun⟩ := Bool.and_eq_true_iff.1 hrun
  obtain ⟨T, hT, hrun⟩ := (Option.any_eq_true _ _).1 hrun
  obtain ⟨P, hP, hrun⟩ := (Option.any_eq_true _ _).1 hrun
  obtain ⟨D, hD, hrun⟩ := (Option.any_eq_true _ _).1 hrun
  obtain ⟨m, hm, hrun⟩ := List.any_eq_true.1 hrun
  obtain ⟨hname, hvisible⟩ := Bool.and_eq_true_iff.1 hrun
  exact ⟨chunk, tree, d, p, hchunk, htree, hd, hp, hkept, T, P, D, hT, hP, hD, m, hm,
    of_decide_eq_true hname, by simpa using hvisible⟩

end TypedLinks
