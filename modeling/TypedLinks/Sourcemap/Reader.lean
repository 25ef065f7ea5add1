import TypedLinks.Diagnostic.Problem
import TypedLinks.Json.Value
import TypedLinks.Sourcemap.Node

/-!
# Reading a sourcemap

A JSON value is a sourcemap if it is an object with a string `name` and a string `className`, and
its `filePaths` and `children`, where present, are a list of strings and a list of sourcemaps. Other
members say nothing. The first fault is reported, a node being checked before its children.
-/

namespace TypedLinks.Node

/-- Why a JSON value is no sourcemap. -/
inductive SchemaFault where
  | notAnObject (place : Text)
  | noName (place : Text)
  | noClassName (name place : Text)
  | badPaths (name : Text)
  | badChildren (name : Text)
  deriving DecidableEq

/-- The problem of a value that is no sourcemap. -/
def SchemaFault.problem (f : SchemaFault) : Problem :=
  { kind := .sourcemap
    message := match f with
      | notAnObject place => "sourcemap node at " ++ place ++ " is not an object"
      | noName place => "sourcemap node at " ++ place ++ " has no string `name`"
      | noClassName name place =>
        "sourcemap node `" ++ name ++ "` at " ++ place ++ " has no string `className`"
      | badPaths name => "sourcemap node `" ++ name ++ "` has a malformed `filePaths` list"
      | badChildren name => "sourcemap node `" ++ name ++ "` has a malformed `children` list" }

/-- The place of a sourcemap itself. -/
def topPlace : Text := "root"

/-- The place of the children of a node. -/
def childPlace (place name : Text) : Text :=
  if place = topPlace then name else place ++ chainSeparator ++ name

/-- The items of a list that may be missing. -/
def items? : Option Json → Option (List Json)
  | none => some []
  | some j => j.array?

/-- What an object says of its instance. The children are still to be read. -/
structure Fields where
  name : Text
  className : Text
  paths : List Path
  children : List Json

/-- The fields of an object, checked one after the other. -/
def readFields (place : Text) (members : List (Text × Json)) : Except SchemaFault Fields :=
  match (Json.member? members "name").bind Json.string? with
  | none => .error (.noName place)
  | some name =>
    match (Json.member? members "className").bind Json.string? with
    | none => .error (.noClassName name place)
    | some className =>
      match (items? (Json.member? members "filePaths")).bind (·.mapM Json.string?) with
      | none => .error (.badPaths name)
      | some paths =>
        match items? (Json.member? members "children") with
        | none => .error (.badChildren name)
        | some children => .ok ⟨name, className, paths.map Path.ofText, children⟩

theorem sizeOf_member?_lt {members : List (Text × Json)} {name : Text} {j : Json}
    (h : Json.member? members name = some j) : sizeOf j < sizeOf members := by
  unfold Json.member? at h
  obtain ⟨⟨key, value⟩, hfind, rfl⟩ := Option.map_eq_some_iff.1 h
  have hmem := List.mem_reverse.1 (List.mem_of_find?_eq_some hfind)
  have := List.sizeOf_lt_of_mem hmem
  simp only [Prod.mk.sizeOf_spec] at this
  change sizeOf value < sizeOf members
  omega

theorem sizeOf_items?_le {members : List (Text × Json)} {name : Text} {items : List Json}
    (h : items? (Json.member? members name) = some items) :
    sizeOf items ≤ sizeOf members := by
  cases hm : Json.member? members name with
  | none =>
    rw [hm] at h
    cases h
    cases members with
    | nil => simp only [List.nil.sizeOf_spec, Nat.le_refl]
    | cons m ms =>
      simp only [List.nil.sizeOf_spec, List.cons.sizeOf_spec]
      omega
  | some j =>
    rw [hm] at h
    have hlt := sizeOf_member?_lt hm
    cases j <;> simp [items?, Json.array?] at h
    subst h
    simp at hlt
    omega

theorem sizeOf_readFields_le {place : Text} {members : List (Text × Json)} {f : Fields}
    (h : readFields place members = .ok f) : sizeOf f.children ≤ sizeOf members := by
  unfold readFields at h
  repeat' split at h
  all_goals first
    | contradiction
    | (injection h with h; subst h)
  rename_i hchildren
  exact sizeOf_items?_le hchildren

mutual

/-- The sourcemap that a JSON value at a place holds. -/
def ofJson (place : Text) (j : Json) : Except SchemaFault Node :=
  match j with
  | .object members =>
    match h : readFields place members with
    | .error fault => .error fault
    | .ok f =>
      have := sizeOf_readFields_le h
      (mk f.name f.className f.paths ·) <$> ofJsonEach (childPlace place f.name) f.children
  | _ => .error (.notAnObject place)
termination_by sizeOf j

/-- The sourcemaps that JSON values at a place hold. -/
def ofJsonEach (place : Text) (items : List Json) : Except SchemaFault (List Node) :=
  match items with
  | [] => .ok []
  | j :: js => do
    let n ← ofJson place j
    let ns ← ofJsonEach place js
    return n :: ns
termination_by sizeOf items

end

end TypedLinks.Node
