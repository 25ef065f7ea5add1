import TypedLinks.Forwarding.Scope
import TypedLinks.Link.Require
import TypedLinks.Luau.Construction

/-!
# Syntax without places

Trees and the nodes of the syntax without the places of their tokens: kinds, names, flags, values and
structure stay. The path of a require call does not depend on places, nor do the names that a type
mentions.
-/

namespace TypedLinks

namespace Luau

/-! ## Trees -/

/-- A span that says nothing. -/
def nowhere : Span := ⟨.start, .start⟩

/-- A token without its place. -/
def Token.unplaced (t : Token) : Token := { t with span := nowhere }

theorem Token.unplaced_eq_iff {t u : Token} :
    t.unplaced = u.unplaced ↔ t.terminal = u.terminal ∧ t.text = u.text := by
  cases t
  cases u
  simp [unplaced]

namespace Tree

mutual

/-- A tree without the places of its tokens. -/
def unplaced : Tree → Tree
  | leaf t => leaf t.unplaced
  | node c l ts => node c l (unplacedOf ts)

/-- Several trees without the places of their tokens. -/
def unplacedOf : List Tree → List Tree
  | [] => []
  | t :: ts => t.unplaced :: unplacedOf ts

end

@[simp] theorem symbol_unplaced (t : Tree) : t.unplaced.symbol = t.symbol := by
  cases t <;> rfl

theorem length_of_unplacedOf_eq {ts us : List Tree} (h : unplacedOf ts = unplacedOf us) :
    ts.length = us.length := by
  induction ts generalizing us with
  | nil =>
    cases us with
    | nil => rfl
    | cons u us => contradiction
  | cons t ts ih =>
    cases us with
    | nil => contradiction
    | cons u us => rw [List.length_cons, List.length_cons, ih (List.cons.inj h).2]

theorem unplacedOf_append (ts us : List Tree) :
    unplacedOf (ts ++ us) = unplacedOf ts ++ unplacedOf us := by
  induction ts with
  | nil => rfl
  | cons t ts ih => rw [List.cons_append, unplacedOf, unplacedOf, ih, List.cons_append]

mutual

theorem tokens_unplaced (t : Tree) : t.unplaced.tokens = t.tokens.map Token.unplaced := by
  match t with
  | leaf t => rfl
  | node c l ts =>
    rw [unplaced, tokens, tokens]
    exact tokensOf_unplacedOf ts

theorem tokensOf_unplacedOf (ts : List Tree) :
    tokensOf (unplacedOf ts) = (tokensOf ts).map Token.unplaced := by
  match ts with
  | [] => rfl
  | t :: ts =>
    rw [unplacedOf, tokensOf, tokensOf, List.map_append, tokens_unplaced t,
      tokensOf_unplacedOf ts]

end

end Tree

/-! ## Expressions and types -/

namespace Expression

mutual

/-- An expression without its places. -/
def unplaced : Expression → Expression
  | name _ n => name nowhere n
  | string _ value => string nowhere value
  | parenthesized _ e => parenthesized nowhere e.unplaced
  | field _ base n => field nowhere base.unplaced n
  | key _ base k => key nowhere base.unplaced k.unplaced
  | call _ callee es style => call nowhere callee.unplaced (unplacedOf es) style
  | methodCall _ receiver n es style => methodCall nowhere receiver.unplaced n (unplacedOf es) style
  | plain _ kind => plain nowhere kind

/-- Several expressions without their places. -/
def unplacedOf : List Expression → List Expression
  | [] => []
  | e :: es => e.unplaced :: unplacedOf es

end

theorem unplacedOf_eq_map (es : List Expression) : unplacedOf es = es.map unplaced := by
  induction es with
  | nil => rfl
  | cons e es ih => rw [unplacedOf, ih, List.map_cons]

@[simp] theorem isCall_unplaced (e : Expression) : e.unplaced.isCall = e.isCall := by
  cases e <;> rfl

end Expression

namespace TypeNode

mutual

/-- A type without its places. -/
def unplaced : TypeNode → TypeNode
  | reference _ module name arguments => reference nowhere module name (unplacedOf arguments)
  | packReference _ name => packReference nowhere name
  | typeof _ e => typeof nowhere e.unplaced
  | function _ generics parameters returns =>
    function nowhere generics (unplacedOf parameters) returns.unplaced
  | composite _ kind parts => composite nowhere kind (unplacedOf parts)

/-- Several types without their places. -/
def unplacedOf : List TypeNode → List TypeNode
  | [] => []
  | t :: ts => t.unplaced :: unplacedOf ts

end

theorem unplacedOf_eq_map (ts : List TypeNode) : unplacedOf ts = ts.map unplaced := by
  induction ts with
  | nil => rfl
  | cons t ts ih => rw [unplacedOf, ih, List.map_cons]

@[simp] theorem isPackMember_unplaced (t : TypeNode) : t.unplaced.isPackMember = t.isPackMember := by
  match t with
  | .composite _ kind _ => cases kind <;> rfl
  | .reference .. | .packReference .. | .typeof .. | .function .. => rfl

end TypeNode

theorem unplaced_parenthesizedType (s : Span) (ts : List TypeNode) :
    (parenthesizedType s ts).unplaced = parenthesizedType nowhere (ts.map TypeNode.unplaced) := by
  rcases ts with _ | ⟨t, _ | ⟨u, ts⟩⟩ <;>
    simp [parenthesizedType, TypeNode.unplaced, TypeNode.unplacedOf_eq_map]

/-! ## Statements -/

/-- A generic parameter without its places. -/
def GenericParameter.unplaced (g : GenericParameter) : GenericParameter :=
  ⟨nowhere, g.name, g.variadic, g.default.map TypeNode.unplaced⟩

/-- A type declaration without its places. -/
def TypeDeclaration.unplaced (d : TypeDeclaration) : TypeDeclaration :=
  ⟨nowhere, d.exported, d.name, d.generics.map (·.map GenericParameter.unplaced), d.body.unplaced⟩

/-- A statement without its places. -/
def Statement.unplaced : Statement → Statement
  | plain _ => plain nowhere
  | typeFunction _ => typeFunction nowhere
  | localAssignment _ names es => localAssignment nowhere names (es.map Expression.unplaced)
  | typeDeclaration d => typeDeclaration d.unplaced

/-- A `return` without its places. -/
def Return.unplaced (r : Return) : Return := ⟨nowhere, r.expressions.map Expression.unplaced⟩

/-- A block without its places. -/
def Block.unplaced (b : Block) : Block :=
  ⟨b.statements.map Statement.unplaced, b.last.map Return.unplaced⟩

/-! ## Mentioned names -/

namespace TypeNode

mutual

/-- Whether the names that a type mentions are among the given ones does not depend on its place. -/
theorem isResolvable_unplaced (names : List Name) (t : TypeNode) :
    t.unplaced.isResolvable names = t.isResolvable names := by
  match t with
  | reference _ module name arguments =>
    rw [unplaced, isResolvable, isResolvable, allResolvable_unplacedOf names arguments]
  | packReference .. | typeof .. => rfl
  | function _ generics parameters returns =>
    rw [unplaced, isResolvable, isResolvable,
      allResolvable_unplacedOf (names ++ generics) parameters,
      isResolvable_unplaced (names ++ generics) returns]
  | composite _ _ parts =>
    rw [unplaced, isResolvable, isResolvable, allResolvable_unplacedOf names parts]

theorem allResolvable_unplacedOf (names : List Name) (ts : List TypeNode) :
    allResolvable names (unplacedOf ts) = allResolvable names ts := by
  match ts with
  | [] => rfl
  | t :: ts =>
    rw [unplacedOf, allResolvable, allResolvable, isResolvable_unplaced names t,
      allResolvable_unplacedOf names ts]

end

end TypeNode

end Luau

open Luau

/-! ## Require paths -/

namespace RequirePath

/-- A fault without the places of its expression. -/
def Fault.unplaced (f : Fault) : Fault := ⟨f.expression.unplaced, f.reason⟩

/-- The path that an expression spells does not depend on its place. -/
theorem ofExpression_unplaced (e : Expression) :
    ofExpression e.unplaced = (ofExpression e).mapError Fault.unplaced := by
  fun_induction ofExpression e with
  | case1 => rfl
  | case2 s base n ih =>
    rw [Expression.unplaced, ofExpression, ih]
    cases ofExpression base <;> rfl
  | case3 s base k ih =>
    rw [Expression.unplaced, ofExpression, ih]
    cases ofExpression base with
    | error f => rfl
    | ok path => cases k <;> rfl
  | case4 e hname hfield hkey =>
    cases e with
    | name s n => exact absurd rfl (hname s n)
    | field s base n => exact absurd rfl (hfield s base n)
    | key s base k => exact absurd rfl (hkey s base k)
    | _ => rfl

@[simp] theorem isRequire_unplaced (e : Expression) : isRequire e.unplaced = isRequire e := by
  cases e <;> rfl

theorem ofCall_unplaced (e : Expression) :
    ofCall e.unplaced = (ofCall e).mapError Fault.unplaced := by
  cases e with
  | call s callee es style =>
    have hcallee := isRequire_unplaced callee
    rcases es with _ | ⟨e, _ | ⟨f, es⟩⟩
    all_goals
      simp only [Expression.unplaced, Expression.unplacedOf, ofCall, hcallee]
      split
      · rfl
      split
      · rfl
    · rfl
    · exact ofExpression_unplaced e
    · rw [Expression.unplacedOf_eq_map, List.length_cons, List.length_cons, List.length_map,
        ← Expression.unplacedOf_eq_map]
      rfl
  | _ => rfl

/-- The path of a require call does not depend on its place. -/
theorem ofCall_congr {e f : Expression} (h : f.unplaced = e.unplaced) {path : RequirePath}
    (he : ofCall e = .ok path) : ofCall f = .ok path := by
  have hf := ofCall_unplaced f
  rw [h, ofCall_unplaced, he] at hf
  cases hcall : ofCall f with
  | ok path' =>
    rw [hcall] at hf
    exact hf.symm
  | error fault =>
    rw [hcall] at hf
    contradiction

end RequirePath

end TypedLinks
