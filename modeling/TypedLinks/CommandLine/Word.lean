import TypedLinks.Text.Digit
import TypedLinks.Text.Quoted

/-!
# Words of a command line

Each word of a command line is an argument, the separator after which all words are arguments, or an
option. A long option may be shortened as long as one option remains, and its value may follow an
equals sign; the value of a short option, or further short options, may follow it at once.
-/

namespace TypedLinks.CommandLine

/-- An option. -/
inductive Flag where
  | help | sourcemap | dryRun | verbose | version
  deriving DecidableEq, Repr

namespace Flag

/-- The spellings of the options, in the order in which they are listed. -/
def spellings : List (Text × Flag) :=
  [("-h", help), ("--help", help), ("-s", sourcemap), ("--sourcemap", sourcemap),
    ("--dry-run", dryRun), ("-v", verbose), ("--verbose", verbose), ("--version", version)]

/-- The option of a spelling. -/
def ofText? (t : Text) : Option Flag := spellings.lookup t

/-- The name of an option in a message: all its spellings. -/
def title (f : Flag) : Text :=
  Text.join "/" ((spellings.filter fun (_, g) => g = f).map (·.1))

/-- Whether an option has a value. -/
def takesValue : Flag → Bool
  | sourcemap => true
  | help | dryRun | verbose | version => false

end Flag

/-- A word of a command line. -/
inductive Word where
  | argument (t : Text)
  | separator
  /-- An option, whether its short spelling is used, and the text that is attached to it, at once or
  by an equals sign. -/
  | option (f : Flag) (short : Bool) (attached : Option Text)
  /-- Something that looks like an option and is none. -/
  | unknown (t : Text)
  deriving DecidableEq

namespace Word

/-- The text of the separator. -/
def separatorText : Text := "--"

/-- The start of an option. -/
def dash : CodePoint := CodePoint.ofChar '-'

/-- Whether a text starts like a long option. -/
def isLong : Text → Bool
  | a :: b :: _ => a = dash && b = dash
  | _ => false

/-- The text before the first equals sign, and what is attached by it. -/
def splitEquals (t : Text) : Text × Option Text :=
  let before := t.takeWhile (· != CodePoint.ofChar '=')
  match t.drop before.length with
  | [] => (before, none)
  | _ :: after => (before, some after)

/-- A run of decimal digits that is not empty. -/
def isDigits (t : Text) : Bool := !t.isEmpty && t.all (·.decimalValue?.isSome)

/-- Whether a text is a number after a dash: digits, or a point with digits behind it. A line feed
may end it. -/
def isNegativeNumber (t : Text) : Bool :=
  let t := if t.getLast? = some (CodePoint.ofChar '\n') then t.dropLast else t
  match t with
  | [] => false
  | d :: t =>
    let whole := t.takeWhile (·.decimalValue?.isSome)
    d = dash && (isDigits t ||
      match t.drop whole.length with
      | p :: fraction => p = CodePoint.ofChar '.' && isDigits fraction
      | [] => false)

/-- The spellings that a text may stand for if it is none itself: for a long option those that it
begins, for a short option the one that it begins with. -/
def candidates (t : Text) : List (Text × Word) :=
  if isLong t then
    let (start, attached) := splitEquals t
    (Flag.spellings.filter fun (s, _) => start.isPrefixOf s).map fun (s, f) =>
      (s, .option f false attached)
  else
    (Flag.spellings.filter fun (s, _) => s = t.take 2).map fun (s, f) =>
      (s, .option f true (some (t.drop 2)))

/-- The word of a text that is no spelling of an option and starts like one. -/
def ofUnlisted (t : Text) : Except Text Word :=
  match candidates t with
  | [] =>
    .ok (if isNegativeNumber t || t.contains (CodePoint.ofChar ' ') then .argument t else .unknown t)
  | [(_, w)] => .ok w
  | several =>
    .error ("ambiguous option: " ++ t ++ " could match " ++ Text.join ", " (several.map (·.1)))

/-- The word of a text before the separator. The error is a message. -/
def ofText (t : Text) : Except Text Word :=
  if t = separatorText then .ok .separator
  else if t.head? ≠ some dash ∨ t = [dash] then .ok (.argument t)
  else match Flag.ofText? t with
    | some f => .ok (.option f (!isLong t) none)
    | none =>
      match splitEquals t with
      | (start, some attached) =>
        match Flag.ofText? start with
        | some f => .ok (.option f (!isLong t) (some attached))
        | none => ofUnlisted t
      | (_, none) => ofUnlisted t

/-- The words of a command line. Behind the separator all texts are arguments. -/
def ofTexts : List Text → Except Text (List Word)
  | [] => .ok []
  | t :: ts => do
    match ← ofText t with
    | .separator => return .separator :: ts.map .argument
    | w => return w :: (← ofTexts ts)

end Word

end TypedLinks.CommandLine
