import TypedLinks.Diagnostic.Problem
import TypedLinks.Link.Require
import TypedLinks.Sourcemap.Search
import TypedLinks.Text.Quoted

/-!
# Resolving require paths

A require path is walked over the sourcemap. It starts at the instance of the file that requires, or
at the root; `Parent` goes up, and any other name goes to the first child of that name.
-/

namespace TypedLinks

namespace Resolution

/-- The identifier of the file that requires. -/
def scriptAnchor : Text := "script"

/-- The identifier of the root. -/
def rootAnchor : Text := "game"

/-- The name that goes up. -/
def parentStep : Text := "Parent"

/-- Why a require path leads nowhere. -/
inductive Fault where
  /-- The path has no steps. -/
  | empty
  /-- The path starts with another identifier. -/
  | unknownAnchor (head : Text)
  /-- The file that requires is not listed. -/
  | unlisted (file : Path)
  /-- The path goes up from the root. -/
  | aboveRoot (place : Chain)
  /-- An instance has no child of a name. -/
  | noChild (name : Text) (place : Chain)

/-- The problem of a require path that leads nowhere. -/
def Fault.problem : Fault → Problem
  | empty => { kind := .unsupportedAnchor, message := "require path is empty" }
  | unknownAnchor head =>
    { kind := .unsupportedAnchor
      message := "require path starts with `" ++ head ++ "`; expected `" ++ scriptAnchor ++
        "` or `" ++ rootAnchor ++ "`" }
  | unlisted file =>
    { kind := .unlistedFile
      message := "`" ++ file.text ++ "` is not in the sourcemap, so `" ++ scriptAnchor ++
        "` cannot be resolved" }
  | aboveRoot place =>
    { kind := .brokenPath
      message := "`" ++ parentStep ++ "` of `" ++ place.text ++ "` is above the sourcemap root" }
  | noChild name place =>
    { kind := .unresolvedChild
      message := "`" ++ name ++ "` is not a child of `" ++ place.text ++ "`" }

/-- Where a path of a file starts. -/
def anchor (tree : Node) (file : Path) (head : Text) : Except Fault Chain :=
  if head = scriptAnchor then
    match tree.owner? file with
    | some c => .ok c
    | none => .error (.unlisted file)
  else if head = rootAnchor then .ok ⟨tree, []⟩
  else .error (.unknownAnchor head)

/-- One step from a place. -/
def step (c : Chain) (name : Text) : Except Fault Chain :=
  if name = parentStep then
    match c.up? with
    | some c => .ok c
    | none => .error (.aboveRoot c)
  else
    match c.node.child? name with
    | some child => .ok (c.down child)
    | none => .error (.noChild name c)

/-- The place that steps lead to from a place. -/
def walk (c : Chain) : List Text → Except Fault Chain
  | [] => .ok c
  | name :: names => do
    let c ← step c name
    walk c names

end Resolution

/-- The place that a require path of a file leads to. -/
def Node.resolve (tree : Node) (file : Path) : RequirePath → Except Resolution.Fault Chain
  | [] => .error .empty
  | head :: names => do
    let c ← Resolution.anchor tree file head
    Resolution.walk c names

/-- What is logged of a resolved path. -/
def RequirePath.resolvedMessage (path : RequirePath) (place : Chain) : Text :=
  "Resolved " ++ Text.quotedList path ++ " to " ++ place.text

/-- The problem of an instance without a module file. -/
def Node.noModuleProblem (n : Node) : Problem :=
  { kind := .noModuleFile
    message := "`" ++ n.name ++ "` [" ++ n.className ++
      "] has no .lua or .luau file in the sourcemap" }

end TypedLinks
