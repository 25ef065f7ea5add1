import TypedLinks.Luau.Automaton.Tokens
import TypedLinks.Luau.Automaton.Categories
import TypedLinks.Luau.Tree

/-!
# The parsing machine

A shift-reduce machine over the parsing automaton. Its stack holds a state with each tree that is
not yet part of a larger one. The next token is read only when the parser needs it, and only the
terminals that the current state accepts are looked for; when none of them starts there, any
terminal is, so that the error can name the token.
-/

namespace TypedLinks.Luau

/-! ## Moves of the automaton -/

namespace State

/-- The state after shifting a token. -/
def shift? (q : State) (t : Terminal) : Option State := (afterToken t).find? (·.follows q)

/-- The state after a reduction to a category. -/
def goto? (q : State) (c : Category) : Option State := (afterCategory c).find? (·.follows q)

/-- Whether a state has an action on a token. -/
def accepts (q : State) (t : Terminal) : Bool :=
  (q.shift? t).isSome || (q.reduction? (some t)).isSome

end State

/-! ## Configurations -/

/-- What follows the part that was read. -/
inductive Lookahead where
  /-- It was not looked at yet. -/
  | unread
  /-- The end of the source. -/
  | atEnd
  | token (t : Token)
  deriving DecidableEq, Repr

/-- The stack of the machine, what comes next, and the source after that. -/
structure Configuration where
  stack : List (State × Tree)
  lookahead : Lookahead
  position : Position
  rest : List Char

/-- The state on top of the stack. -/
def Configuration.state (c : Configuration) : State :=
  match c.stack with
  | [] => .initial
  | (q, _) :: _ => q

/-- The configuration before anything is read. -/
def Configuration.initial (source : List Char) : Configuration := ⟨[], .unread, .start, source⟩

/-- Why a source has no parse tree. -/
inductive SyntaxFault where
  /-- The source ends too early. -/
  | unexpectedEnd
  /-- A token stands where it cannot. -/
  | unexpectedToken (t : Token)
  /-- No token starts here. -/
  | unexpectedCharacter (c : Char) (position : Position)
  /-- The machine cannot go on. -/
  | stuck
  deriving DecidableEq, Repr

/-- The result of a step. -/
inductive Step where
  | next (c : Configuration)
  | done (t : Tree)
  | failed (e : SyntaxFault)

/-! ## Steps -/

/-- Looks at what comes next: passes over white space and comments, then reads a token. -/
def Configuration.look (c : Configuration) : Step :=
  match skipTrivia 0 c.position c.rest with
  | (p, []) => .next { c with lookahead := .atEnd, position := p, rest := [] }
  | (p, char :: cs) =>
    match scan c.state.accepts p (char :: cs) with
    | some (t, rest) => .next { c with lookahead := .token t, position := t.span.stop, rest }
    | none =>
      match scan (fun _ => true) p (char :: cs) with
      | some (t, _) => .failed (.unexpectedToken t)
      | none => .failed (.unexpectedCharacter char p)

/-- Replaces the trees on top of the stack by one tree. A chunk is the whole source. -/
def Configuration.reduce (c : Configuration) (r : Reduction) : Step :=
  let tree := Tree.node r.head r.construct ((c.stack.take r.size).reverse.map (·.2))
  if r.head = .chunk then .done tree
  else
    let below := { c with stack := c.stack.drop r.size }
    match below.state.goto? r.head with
    | some q => .next { below with stack := (q, tree) :: below.stack }
    | none => .failed .stuck

/-- Shifts a token, or reduces before it, or fails. -/
def Configuration.onToken (c : Configuration) (t : Token) : Step :=
  match c.state.shift? t.terminal with
  | some q => .next { c with stack := (q, .leaf t) :: c.stack, lookahead := .unread }
  | none =>
    match c.state.reduction? (some t.terminal) with
    | some r => c.reduce r
    | none => .failed (.unexpectedToken t)

/-- Reduces at the end of the source, or fails. -/
def Configuration.onEnd (c : Configuration) : Step :=
  match c.state.reduction? none with
  | some r => c.reduce r
  | none => .failed .unexpectedEnd

/-- One step of the machine. -/
def Configuration.step (c : Configuration) : Step :=
  match c.lookahead with
  | .unread => c.look
  | .atEnd => c.onEnd
  | .token t => c.onToken t

/-- Runs the machine for at most a number of steps. -/
def Configuration.run : Nat → Configuration → Except SyntaxFault Tree
  | 0, _ => .error .stuck
  | fuel + 1, c =>
    match c.step with
    | .next c => run fuel c
    | .done t => .ok t
    | .failed e => .error e

/-- More steps than the machine can make on a source of this length: between two tokens it reduces
along a chain of categories that is shorter than this factor. -/
def stepBound (length : Nat) : Nat := 64 * (length + 2)

/-- The parse tree of a source. -/
def parseTree (source : List Char) : Except SyntaxFault Tree :=
  (Configuration.initial source).run (stepBound source.length)

end TypedLinks.Luau
