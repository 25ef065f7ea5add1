import TypedLinks.Text.Basic

/-!
# The journal of a run

What the program tells about its work: log lines with a level, and plain text. Work that touches
nothing outside is a value together with the lines it logged; it may stop early, and keeps the lines
up to there.
-/

namespace TypedLinks

/-- How important a log line is. -/
inductive Level where
  | debug | info | error
  deriving DecidableEq, Repr

namespace Level

/-- The name of a level. -/
def name : Level → Text
  | debug => "DEBUG"
  | info => "INFO"
  | error => "ERROR"

/-- Whether a line of a level is shown; lines for debugging only on request. -/
def isShown (verbose : Bool) : Level → Bool
  | debug => verbose
  | info | error => true

end Level

/-- A line of the log. -/
structure LogLine where
  level : Level
  message : Text
  deriving DecidableEq

/-- The text of a log line, with its line end. -/
def LogLine.text (l : LogLine) : Text := l.level.name ++ ": " ++ l.message ++ "\n"

/-- What is written to the error output. -/
inductive Remark where
  | log (line : LogLine)
  | plain (text : Text)
  deriving DecidableEq

/-- The text of a remark. -/
def Remark.text (verbose : Bool) : Remark → Text
  | log line => if line.level.isShown verbose then line.text else []
  | plain text => text

/-- Somewhere to write remarks to. -/
class Journal (m : Type → Type) where
  write : Remark → m Unit

/-! ## Logged work -/

/-- The result of some work and the lines that it logged. -/
structure Logged (ε α : Type) where
  result : Except ε α
  lines : List LogLine := []

namespace Logged

variable {ε α β : Type}

instance : Monad (Logged ε) where
  pure a := ⟨.ok a, []⟩
  bind w f :=
    match w.result with
    | .ok a => ⟨(f a).result, w.lines ++ (f a).lines⟩
    | .error e => ⟨.error e, w.lines⟩

instance : MonadExceptOf ε (Logged ε) where
  throw e := ⟨.error e, []⟩
  tryCatch w h :=
    match w.result with
    | .ok _ => w
    | .error e => ⟨(h e).result, w.lines ++ (h e).lines⟩

/-- Logs a line. -/
def log (level : Level) (message : Text) : Logged ε Unit := ⟨.ok (), [⟨level, message⟩]⟩

/-- Work with a given result that logs nothing. -/
def ofExcept (r : Except ε α) : Logged ε α := ⟨r, []⟩

/-- The same work with other errors. -/
def mapError {ε' : Type} (f : ε → ε') (w : Logged ε α) : Logged ε' α :=
  ⟨w.result.mapError f, w.lines⟩

@[simp] theorem result_pure (a : α) : (pure a : Logged ε α).result = .ok a := rfl

@[simp] theorem result_bind (w : Logged ε α) (f : α → Logged ε β) :
    (w >>= f).result = w.result >>= fun a => (f a).result := by
  change (match w.result with
    | .ok a => (⟨(f a).result, w.lines ++ (f a).lines⟩ : Logged ε β)
    | .error e => ⟨.error e, w.lines⟩).result = _
  cases w.result <;> rfl

@[simp] theorem result_log (level : Level) (message : Text) :
    (log level message : Logged ε Unit).result = .ok () := rfl

@[simp] theorem result_ofExcept (r : Except ε α) : (ofExcept r).result = r := rfl

@[simp] theorem result_throw (e : ε) : (throw e : Logged ε α).result = .error e := rfl

@[simp] theorem result_mapError {ε' : Type} (f : ε → ε') (w : Logged ε α) :
    (w.mapError f).result = w.result.mapError f := rfl

/-- Writes the lines of some work to a journal, and gives its result. -/
def perform {m : Type → Type} [Monad m] [Journal m] (w : Logged ε α) : m (Except ε α) := do
  for line in w.lines do
    Journal.write (.log line)
  return w.result

end Logged

end TypedLinks
