import TypedLinks.CommandLine.Word
import TypedLinks.Path

/-!
# Reading a command line

The options and the folder that a command line gives. Words that nothing takes are refused at the
end, after anything that is missing; a request for help or for the version is met at once.
-/

namespace TypedLinks.CommandLine

/-- What the program is asked to do. -/
structure Options where
  folder : Path
  /-- There is none if its option was given the separator as a value, which is dropped. -/
  sourcemap : Option Path
  dryRun : Bool
  verbose : Bool
  deriving DecidableEq

/-- Why a command line is not followed. -/
inductive Refused where
  | help
  | version
  | misuse (message : Text)
  deriving DecidableEq

/-- What was read of a command line so far. -/
structure Reading where
  folder : Option Text := none
  sourcemap : Option Text := none
  dryRun : Bool := false
  verbose : Bool := false
  /-- The words that nothing took. -/
  extras : List Text := []

/-- The name of the folder in messages. -/
def folderTitle : Text := "packages_folder"

/-- The message about an option. -/
def misuse (f : Flag) (message : Text) : Refused :=
  .misuse ("argument " ++ f.title ++ ": " ++ message)

/-! ## One word -/

/-- An option together with its value. -/
abbrev Setting := Flag × Text

/-- The options that a word gives. -/
structure Cluster where
  settings : List Setting
  /-- An option at its end whose value is the next word. -/
  open? : Option Flag

namespace Cluster

/-- A cluster with an option in front. -/
def cons (s : Setting) (c : Cluster) : Cluster := { c with settings := s :: c.settings }

/-- An option to which nothing is attached. -/
def bare (f : Flag) : Cluster := if f.takesValue then ⟨[], some f⟩ else ⟨[(f, [])], none⟩

/-- The fault of a text attached to an option that has no value. -/
def ignored {α : Type} (f : Flag) (t : Text) : Except Refused α :=
  .error (misuse f ("ignored explicit argument " ++ t.quoted))

/-- The options of a word that starts with a short option, to which a text is attached: its value, or
more short options. -/
def ofShort (f : Flag) : Text → Except Refused Cluster
  | [] => if f.takesValue then .ok ⟨[(f, [])], none⟩ else ignored f []
  | p :: t =>
    if f.takesValue then .ok ⟨[(f, p :: t)], none⟩
    else match Flag.ofText? [Word.dash, p], t with
      | none, _ => ignored f (p :: t)
      | some g, [] => .ok (cons (f, []) (bare g))
      | some g, q :: u => cons (f, []) <$> ofShort g (q :: u)

/-- The options of a word. -/
def ofWord (f : Flag) (short : Bool) : Option Text → Except Refused Cluster
  | none => .ok (bare f)
  | some t =>
    if short then ofShort f t
    else if f.takesValue then .ok ⟨[(f, t)], none⟩
    else ignored f t

end Cluster

/-! ## All words -/

namespace Reading

/-- Takes an option. -/
def set (r : Reading) : Setting → Except Refused Reading
  | (.help, _) => .error .help
  | (.version, _) => .error .version
  | (.sourcemap, value) => .ok { r with sourcemap := some value }
  | (.dryRun, _) => .ok { r with dryRun := true }
  | (.verbose, _) => .ok { r with verbose := true }

/-- Takes some options one after the other. -/
def setAll (r : Reading) : List Setting → Except Refused Reading
  | [] => .ok r
  | s :: ss => do
    let r ← r.set s
    r.setAll ss

/-- Keeps words that nothing takes. -/
def leave (r : Reading) (ts : List Text) : Reading := { r with extras := r.extras ++ ts }

/-- Reads words. The folder is the first argument; a separator on either side of it goes with it. -/
def words (r : Reading) : List Word → Except Refused Reading
  | [] => .ok r
  | .unknown t :: ws => (r.leave [t]).words ws
  | .argument t :: .separator :: ws =>
    if r.folder.isNone then { r with folder := some t }.words ws
    else (r.leave [t, Word.separatorText]).words ws
  | .argument t :: ws =>
    if r.folder.isNone then { r with folder := some t }.words ws else (r.leave [t]).words ws
  | .separator :: .argument t :: ws =>
    if r.folder.isNone then { r with folder := some t }.words ws
    else (r.leave [Word.separatorText, t]).words ws
  | .separator :: ws => (r.leave [Word.separatorText]).words ws
  | .option f short attached :: ws =>
    match Cluster.ofWord f short attached with
    | .error e => .error e
    | .ok ⟨settings, none⟩ =>
      match r.setAll settings with
      | .error e => .error e
      | .ok r => r.words ws
    | .ok ⟨settings, some g⟩ =>
      match ws with
      | .argument t :: ws =>
        match r.setAll (settings ++ [(g, t)]) with
        | .error e => .error e
        | .ok r => r.words ws
      | _ => .error (misuse g "expected one argument")

/-- The names of what is missing. -/
def missing (r : Reading) : List Text :=
  (if r.folder.isNone then [folderTitle] else []) ++
    if r.sourcemap.isNone then [Flag.sourcemap.title] else []

/-- What a complete reading asks for. -/
def finish (r : Reading) : Except Refused Options :=
  match r.folder, r.sourcemap with
  | some folder, some sourcemap =>
    if r.extras.isEmpty then
      let sourcemap := if sourcemap = Word.separatorText then none else some (.ofText sourcemap)
      .ok ⟨.ofText folder, sourcemap, r.dryRun, r.verbose⟩
    else .error (.misuse ("unrecognized arguments: " ++ Text.join " " r.extras))
  | _, _ =>
    .error (.misuse ("the following arguments are required: " ++ Text.join ", " r.missing))

end Reading

/-- What a command line asks for. -/
def Options.ofTexts (texts : List Text) : Except Refused Options := do
  let words ← (Word.ofTexts texts).mapError .misuse
  let reading ← Reading.words {} words
  reading.finish

end TypedLinks.CommandLine
