import Mathlib.Data.List.Forall2
import Mathlib.Logic.Relation
import TypedLinks.Link.Require
import TypedLinks.Proofs.Syntax.Nodes

/-!
# Static require calls

Every expression is a root with indices behind it. A path is read off them from left to right: it is
static if the root is a name and each index is a field or a string literal. What is blamed otherwise
is the first obstacle in reading order, which is the root before any index, however deep the root
stands in the expression.
-/

namespace TypedLinks

open Luau

/-! ## Indices -/

namespace Luau

/-- An index, which stands behind its base. -/
inductive Index where
  | field (span : Span) (name : Name)
  | key (span : Span) (key : Expression)

/-- The expression that an index makes of its base. -/
def Index.onto (base : Expression) : Index → Expression
  | field span name => .field span base name
  | key span k => .key span base k

namespace Expression

/-- An expression with indices behind it, the leftmost first. -/
def indexed (root : Expression) (indices : List Index) : Expression := indices.foldl Index.onto root

/-- Whether an expression is no index of a base. -/
def IsRoot : Expression → Prop
  | field .. | key .. => False
  | _ => True

/-- Whether an expression is another one or stands inside it. -/
def Holds : Expression → Expression → Prop :=
  Relation.ReflTransGen fun outer inner => inner ∈ outer.operands

theorem indexed_cons (root : Expression) (i : Index) (indices : List Index) :
    root.indexed (i :: indices) = (i.onto root).indexed indices := rfl

theorem indexed_append (root : Expression) (before behind : List Index) :
    root.indexed (before ++ behind) = (root.indexed before).indexed behind :=
  List.foldl_append

theorem exists_indexed (e : Expression) :
    ∃ (root : Expression) (indices : List Index), root.IsRoot ∧ e = root.indexed indices := by
  induction e using RequirePath.ofExpression.induct with
  | case1 span name => exact ⟨.name span name, [], trivial, rfl⟩
  | case2 span base name ih =>
    obtain ⟨root, indices, hroot, hbase⟩ := ih
    exact ⟨root, indices ++ [.field span name], hroot, by rw [indexed_append, ← hbase]; rfl⟩
  | case3 span base key ih =>
    obtain ⟨root, indices, hroot, hbase⟩ := ih
    exact ⟨root, indices ++ [.key span key], hroot, by rw [indexed_append, ← hbase]; rfl⟩
  | case4 e hname hfield hkey =>
    refine ⟨e, [], ?_, rfl⟩
    cases e with
    | field span base name => exact hfield span base name rfl
    | key span base key => exact hkey span base key rfl
    | _ => trivial

theorem holds_indexed (root : Expression) (indices : List Index) :
    (root.indexed indices).Holds root := by
  induction indices generalizing root with
  | nil => exact .refl
  | cons i indices ih =>
    refine (ih (i.onto root)).tail ?_
    cases i <;> exact List.mem_cons_self

end Expression

end Luau

namespace RequirePath

/-! ## Static calls -/

/-- The step of a path that an index spells. -/
inductive Spells : Index → Text → Prop where
  | field (span : Span) (name : Name) : Spells (.field span name) (Text.ofChars name)
  | literal (span keySpan : Span) (value : Text) :
      Spells (.key span (.string keySpan value)) value.trim

/-- The call of `require` with one argument between parentheses. -/
def requireOf (span calleeSpan : Span) (argument : Expression) : Expression :=
  .call span (.name calleeSpan "require".toList) [argument] .parentheses

/-- A static require call and its path: a name and what the indices behind it spell. -/
inductive Static : Expression → RequirePath → Prop where
  | call (span calleeSpan rootSpan : Span) (name : Name) {indices : List Index} {steps : List Text}
      (spelled : List.Forall₂ Spells indices steps) :
      Static (requireOf span calleeSpan ((Expression.name rootSpan name).indexed indices))
        (Text.ofChars name :: steps)

/-- What is to blame for an expression that is no static require call. -/
inductive Blames : Expression → Fault → Prop where
  | call {e : Expression} (uncalled : ∀ span f args style, e ≠ .call span f args style) :
      Blames e ⟨e, .notACall⟩
  | callee (span : Span) {callee : Expression} (args : List Expression) (style : ArgumentStyle)
      (other : ∀ s, callee ≠ .name s "require".toList) :
      Blames (.call span callee args style) ⟨callee, .notRequire⟩
  | style (span s : Span) (args : List Expression) {style : ArgumentStyle}
      (other : style ≠ .parentheses) :
      Blames (.call span (.name s "require".toList) args style)
        ⟨.call span (.name s "require".toList) args style, .notParenthesized⟩
  | count (span s : Span) {args : List Expression} (other : args.length ≠ 1) :
      Blames (.call span (.name s "require".toList) args .parentheses)
        ⟨.call span (.name s "require".toList) args .parentheses, .argumentCount args.length⟩
  | root (span s : Span) {root : Expression} (indices : List Index) (isRoot : root.IsRoot)
      (unnamed : ∀ s' name, root ≠ .name s' name) :
      Blames (requireOf span s (root.indexed indices)) ⟨root, .notAPath⟩
  | key (span s rootSpan keySpan : Span) (name : Name) {before : List Index} {steps : List Text}
      (spelled : List.Forall₂ Spells before steps) {key : Expression} (after : List Index)
      (dynamic : ∀ s' value, key ≠ .string s' value) :
      Blames (requireOf span s
          ((Expression.name rootSpan name).indexed (before ++ .key keySpan key :: after)))
        ⟨key, .dynamicKey⟩

/-! ## Reading indices -/

/-- A path with the step of one more index. -/
def extend (path : RequirePath) : Index → Except Fault RequirePath
  | .field _ name => .ok (path ++ [Text.ofChars name])
  | .key _ (.string _ value) => .ok (path ++ [value.trim])
  | .key _ key => .error ⟨key, .dynamicKey⟩

theorem ofExpression_onto (base : Expression) (i : Index) :
    ofExpression (i.onto base) = ofExpression base >>= (extend · i) := by
  cases i with
  | field span name =>
    rw [Index.onto, ofExpression]
    rfl
  | key span key =>
    rw [Index.onto, ofExpression]
    cases key <;> rfl

/-- The indices of a root are read one after the other, from left to right. -/
theorem ofExpression_indexed (root : Expression) (indices : List Index) :
    ofExpression (root.indexed indices) = ofExpression root >>= (indices.foldlM extend ·) := by
  induction indices generalizing root with
  | nil => exact (bind_pure _).symm
  | cons i indices ih =>
    rw [Expression.indexed_cons, ih, ofExpression_onto, bind_assoc]
    rfl

theorem extend_of_spells {i : Index} {step : Text} (h : Spells i step) (path : RequirePath) :
    extend path i = .ok (path ++ [step]) := by
  cases h <;> rfl

theorem extend_of_dynamic {key : Expression} (h : ∀ s value, key ≠ .string s value) (span : Span)
    (path : RequirePath) : extend path (.key span key) = .error ⟨key, .dynamicKey⟩ := by
  cases key with
  | string s value => exact absurd rfl (h s value)
  | _ => rfl

theorem foldlM_extend_of_spells {indices : List Index} {steps : List Text}
    (h : List.Forall₂ Spells indices steps) (path : RequirePath) :
    indices.foldlM extend path = .ok (path ++ steps) := by
  induction h generalizing path with
  | nil =>
    rw [List.append_nil]
    rfl
  | cons hi _ ih =>
    rw [List.foldlM_cons, extend_of_spells hi]
    exact (ih _).trans (by rw [List.append_assoc, List.singleton_append])

/-- Indices spell steps, or there is a leftmost one that does not, which is a key. -/
theorem spells_or_dynamic (indices : List Index) :
    (∃ steps, List.Forall₂ Spells indices steps) ∨
      ∃ before span key after steps, indices = before ++ .key span key :: after ∧
        List.Forall₂ Spells before steps ∧ ∀ s value, key ≠ .string s value := by
  induction indices with
  | nil => exact .inl ⟨[], .nil⟩
  | cons i indices ih =>
    have hstep : (∃ step, Spells i step) ∨
        ∃ span key, i = .key span key ∧ ∀ s value, key ≠ .string s value := by
      cases i with
      | field span name => exact .inl ⟨_, .field span name⟩
      | key span key =>
        cases key with
        | string s value => exact .inl ⟨_, .literal span s value⟩
        | _ => exact .inr ⟨span, _, rfl, nofun⟩
    rcases hstep with ⟨step, hi⟩ | ⟨span, key, rfl, hkey⟩
    · rcases ih with ⟨steps, hsteps⟩ | ⟨before, span, key, after, steps, rfl, hsteps, hkey⟩
      · exact .inl ⟨step :: steps, .cons hi hsteps⟩
      · exact .inr ⟨i :: before, span, key, after, step :: steps, rfl, .cons hi hsteps, hkey⟩
    · exact .inr ⟨[], span, key, indices, [], rfl, .nil, hkey⟩

/-! ## Reading calls -/

theorem isRequire_iff {e : Expression} :
    isRequire e = true ↔ ∃ s, e = .name s "require".toList := by
  cases e with
  | name s name =>
    rw [isRequire, decide_eq_true_iff]
    refine ⟨fun h => ⟨s, by rw [h]⟩, ?_⟩
    rintro ⟨_, h⟩
    exact (Expression.name.inj h).2
  | _ => exact ⟨nofun, nofun⟩

theorem ofCall_requireOf (span s : Span) (argument : Expression) :
    ofCall (requireOf span s argument) = ofExpression argument := by
  simp [ofCall, requireOf, isRequire]

/-- The path of a static call is read. -/
theorem Static.ofCall_eq {e : Expression} {path : RequirePath} (h : Static e path) :
    ofCall e = .ok path := by
  cases h with
  | call span s rootSpan name hspelled =>
    rw [ofCall_requireOf, ofExpression_indexed, ofExpression]
    exact foldlM_extend_of_spells hspelled [Text.ofChars name]

/-- What is to blame is found. -/
theorem Blames.ofCall_eq {e : Expression} {fault : Fault} (h : Blames e fault) :
    ofCall e = .error fault := by
  cases h with
  | call huncalled =>
    cases e with
    | call span callee args style => exact absurd rfl (huncalled span callee args style)
    | _ => rfl
  | callee span args style hother =>
    have hrequire := mt isRequire_iff.1 (not_exists.2 hother)
    simp [ofCall, hrequire]
  | style span s args hother => simp [ofCall, isRequire, hother]
  | count span s hother =>
    simp only [ofCall, isRequire, decide_true, Bool.not_true, Bool.false_eq_true, if_false, ne_eq,
      not_true_eq_false]
    split
    · exact absurd rfl hother
    · rfl
  | @root span s root indices hroot hunnamed =>
    have hfault : ofExpression root = .error ⟨root, .notAPath⟩ := by
      cases root with
      | name s' name => exact absurd rfl (hunnamed s' name)
      | field | key => exact hroot.elim
      | _ => rfl
    rw [ofCall_requireOf, ofExpression_indexed, hfault]
    rfl
  | key span s rootSpan keySpan name hspelled after hdynamic =>
    rw [ofCall_requireOf, ofExpression_indexed, ofExpression]
    change List.foldlM extend [Text.ofChars name] _ = _
    rw [List.foldlM_append, foldlM_extend_of_spells hspelled]
    change List.foldlM extend _ _ = _
    rw [List.foldlM_cons, extend_of_dynamic hdynamic]
    rfl

/-- Every expression is a static require call, or something is to blame. -/
theorem static_or_blames (e : Expression) :
    (∃ path, Static e path) ∨ ∃ fault, Blames e fault := by
  by_cases hcall : ∃ span callee args style, e = .call span callee args style
  swap
  · exact .inr ⟨_, .call (by simpa using hcall)⟩
  obtain ⟨span, callee, args, style, rfl⟩ := hcall
  by_cases hcallee : ∃ s, callee = .name s "require".toList
  swap
  · exact .inr ⟨_, .callee span args style (not_exists.1 hcallee)⟩
  obtain ⟨s, rfl⟩ := hcallee
  by_cases hstyle : style = .parentheses
  swap
  · exact .inr ⟨_, .style span s args hstyle⟩
  subst hstyle
  by_cases hcount : args.length = 1
  swap
  · exact .inr ⟨_, .count span s hcount⟩
  obtain ⟨argument, rfl⟩ := List.length_eq_one_iff.1 hcount
  obtain ⟨root, indices, hroot, rfl⟩ := argument.exists_indexed
  by_cases hname : ∃ s' name, root = .name s' name
  swap
  · exact .inr ⟨_, .root span s indices hroot (by simpa using hname)⟩
  obtain ⟨s', name, rfl⟩ := hname
  rcases spells_or_dynamic indices with
    ⟨steps, hsteps⟩ | ⟨before, keySpan, key, after, steps, rfl, hsteps, hkey⟩
  · exact .inl ⟨_, .call span s s' name hsteps⟩
  · exact .inr ⟨_, .key span s s' keySpan name hsteps after hkey⟩

/-- What is to blame is the expression itself or stands inside it. -/
theorem Blames.holds {e : Expression} {fault : Fault} (h : Blames e fault) :
    e.Holds fault.expression := by
  have hargument {span s : Span} {argument inner : Expression} (h : argument.Holds inner) :
      (requireOf span s argument).Holds inner :=
    .head (List.mem_cons_of_mem _ List.mem_cons_self) h
  cases h with
  | call | style | count => exact .refl
  | callee => exact .single List.mem_cons_self
  | root span s indices => exact hargument (Expression.holds_indexed _ indices)
  | key span s rootSpan keySpan name hspelled after =>
    refine hargument ?_
    rw [Expression.indexed_append, Expression.indexed_cons]
    exact (Expression.holds_indexed _ after).tail (List.mem_cons_of_mem _ List.mem_cons_self)

/-- A path is read off an expression exactly if that is a static require call. Otherwise the problem
is located at what is to blame, which is the expression itself or stands inside it, and quotes
it. -/
theorem static_calls (e : Expression) :
    (∀ path, ofCall e = .ok path ↔ Static e path) ∧
    (∀ fault, ofCall e = .error fault ↔ Blames e fault) ∧
    ∀ fault, Blames e fault → e.Holds fault.expression ∧ ∀ chunk : Chunk,
      (fault.problem chunk).kind = .unsupportedRequire ∧
      (fault.problem chunk).location = some (.ofSpan chunk.file fault.expression.span) ∧
      (fault.problem chunk).message = "unsupported require expression `" ++
        Text.ofChars (fault.expression.span.text chunk.source) ++ "`: " ++
          fault.reason.description := by
  refine ⟨fun path => ⟨fun h => ?_, Static.ofCall_eq⟩, fun fault => ⟨fun h => ?_, Blames.ofCall_eq⟩,
    fun fault h => ⟨h.holds, fun chunk => ⟨rfl, rfl, rfl⟩⟩⟩
  · rcases static_or_blames e with ⟨path', hstatic⟩ | ⟨fault, hblames⟩
    · obtain rfl := Except.ok.inj (h.symm.trans hstatic.ofCall_eq)
      exact hstatic
    · cases h.symm.trans hblames.ofCall_eq
  · rcases static_or_blames e with ⟨path, hstatic⟩ | ⟨fault', hblames⟩
    · cases h.symm.trans hstatic.ofCall_eq
    · obtain rfl := Except.error.inj (h.symm.trans hblames.ofCall_eq)
      exact hblames

/-- A span in the first line of a source. -/
def firstLineSpan (start stop : Nat) : Span := ⟨⟨start, 1, start + 1⟩, ⟨stop, 1, stop + 1⟩⟩

/-- The expression `require(script["a"][b].c[d])`. -/
def dynamicCall : Expression :=
  requireOf (firstLineSpan 0 28) (firstLineSpan 0 7)
    ((Expression.name (firstLineSpan 8 14) "script".toList).indexed
      [.key (firstLineSpan 8 19) (.string (firstLineSpan 15 18) "a"),
        .key (firstLineSpan 8 22) (.name (firstLineSpan 20 21) "b".toList),
        .field (firstLineSpan 8 24) "c".toList,
        .key (firstLineSpan 8 27) (.name (firstLineSpan 25 26) "d".toList)])

/-- The first of the two keys that are names is blamed. -/
theorem static_calls_dynamicCall :
    Blames dynamicCall ⟨.name (firstLineSpan 20 21) "b".toList, .dynamicKey⟩ ∧
    ofCall dynamicCall = .error ⟨.name (firstLineSpan 20 21) "b".toList, .dynamicKey⟩ ∧
    dynamicCall.Holds (.name (firstLineSpan 20 21) "b".toList) := by
  have hblames : Blames dynamicCall ⟨.name (firstLineSpan 20 21) "b".toList, .dynamicKey⟩ :=
    .key _ _ _ _ _ (.cons (.literal _ _ _) .nil) _ nofun
  obtain ⟨-, herror, hinside⟩ := static_calls dynamicCall
  exact ⟨hblames, (herror _).2 hblames, (hinside _ hblames).1⟩

end RequirePath

end TypedLinks
