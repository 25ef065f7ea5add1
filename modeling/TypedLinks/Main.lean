import TypedLinks.CommandLine.Run

/-!
# The program

The disk of the machine, its error output as the journal, and the entry point.
-/

namespace TypedLinks.Program

/-- The work of the program on the machine. It is told whether lines for debugging are shown. -/
abbrev Machine := ReaderT Bool IO

/-! ## Texts -/

/-- A text as the machine writes it; a surrogate is written by its number. -/
def written (t : Text) : String :=
  String.ofList <| t.flatMap fun p =>
    match p.toChar? with
    | some c => [c]
    | none => (Text.ofString "\\u" ++ Text.hexadecimal 4 p.val).filterMap CodePoint.toChar?

/-- The path that is passed to the system. -/
def native (p : Path) : Except DiskFault String :=
  match p.text.unusable?, p.text.toChars? with
  | some why, _ => .error (.unusable why)
  | none, none => .error (.unusable .unencodable)
  | none, some cs => .ok (String.ofList cs)

/-! ## The disk -/

/-- The number of an error, which some operations give as a negative one. -/
def number (code : UInt32) : Nat :=
  if code.toNat < 0x80000000 then code.toNat else 0x100000000 - code.toNat

/-- The refusal of an error number. -/
def refusal (code : UInt32) (details : String) : Refusal :=
  let known : List Refusal := [.notFound, .notFolder, .isFolder, .nameTooLong, .tooManyLinks]
  (known.find? (·.number = number code)).getD (.other (number code) details)

/-- The refusal of an error. -/
def refusalOf : IO.Error → Refusal
  | .alreadyExists _ code details | .otherError code details | .resourceBusy code details
  | .resourceVanished code details | .unsupportedOperation code details
  | .hardwareFault code details | .unsatisfiedConstraints code details
  | .illegalOperation code details | .protocolError code details | .timeExpired code details
  | .interrupted _ code details | .noFileOrDirectory _ code details
  | .invalidArgument _ code details | .permissionDenied _ code details
  | .resourceExhausted _ code details | .inappropriateType _ code details
  | .noSuchThing _ code details => refusal code details
  | .unexpectedEof => .other 5 "Input/output error"
  | .userError details => .other 0 details

/-- An operation on a path. -/
def on {α : Type} (p : Path) (operation : String → IO α) : IO (Except DiskFault α) :=
  match native p with
  | .error fault => return .error fault
  | .ok s => do
    match ← (operation s).toBaseIO with
    | .ok a => return .ok a
    | .error e => return .error (.refused (refusalOf e) p.text)

/-- What stands at a path, links being followed. -/
def kind (p : Path) : IO (Except DiskFault IO.FS.FileType) :=
  on p fun s => return (← (System.mkFilePath [s]).metadata).type

/-- The canonical path of something that exists. -/
def realPath (p : Path) : IO (Except DiskFault Path) := do
  match ← kind p with
  | .error (.refused .tooManyLinks path) => return .error (.cycle path)
  | .error fault => return .error fault
  | .ok _ => on p fun s => return .ofText (← IO.FS.realPath s).toString

/-- The path that names lead to from a canonical path. If the names need not exist, those that lead
nowhere are kept. -/
def resolve (strict : Bool) (p : Path) : List Text → IO (Except DiskFault Path)
  | [] => return .ok p
  | name :: names => do
    if name = Path.parentName then resolve strict p.up names
    else match ← realPath (p.child name) with
      | .ok q => resolve strict q names
      | .error (.refused why path) =>
        if strict then return .error (.refused why path)
        else resolve strict (p.child name) names
      | .error fault => return .error fault

/-- The canonical path of the working folder. -/
def workingFolder : IO Path := return .ofText (← IO.FS.realPath ".").toString

/-- The path that a path resolves to. -/
def resolveFrom (strict : Bool) (p : Path) : IO (Except DiskFault Path) := do
  let start ← if p.isAbsolute then pure (Path.absolute []) else workingFolder
  resolve strict start p.names

/-- Whether something of a kind is found at a path. -/
def isKind (wanted : IO.FS.FileType → Bool) (p : Path) : IO (Except DiskFault Bool) := do
  match ← kind p with
  | .ok k => return .ok (wanted k)
  | .error (.refused why path) =>
    return if why.meansAbsent then .ok false else .error (.refused why path)
  | .error _ => return .ok false

instance : Disk Machine where
  workingFolder := workingFolder
  canonical p := resolveFrom true p
  withoutLinks p := resolveFrom false p
  read p := on p fun s => return (← IO.FS.readBinFile s).toList
  write p bytes := on p fun s => IO.FS.writeBinFile s ⟨bytes.toArray⟩
  isFile p := isKind (fun | .file => true | _ => false) p
  isFolder p := isKind (fun | .dir => true | _ => false) p
  names p := on p fun s => do
    let entries ← (System.mkFilePath [s]).readDir
    return entries.toList.map fun e => Text.ofString e.fileName

instance : Journal Machine where
  write remark := do IO.eprint (written (remark.text (← read)))

/-! ## The entry point -/

/-- The environment variables that the choice of color depends on. -/
def environment : IO Environment :=
  ["NO_COLOR", "WALLY_PACKAGE_TYPES_COLOR"].filterMapM fun name => do
    return (← IO.getEnv name).map fun value => (Text.ofString name, Text.ofString value)

/-- Whether the error output is colored. -/
def color : IO Bool := return useColor (← environment) (← (← IO.getStderr).isTty)

/-- Runs the program, and gives the status that it exits with. -/
def run (o : CommandLine.Options) : IO Nat := do
  match ← (CommandLine.execute (← color) o : ExceptT Crash Machine Nat).run o.verbose with
  | .ok status => return status
  | .error c =>
    IO.eprint (written (CommandLine.programLine c.message))
    return 1

end TypedLinks.Program

/-- The command line of the program. -/
def main (args : List String) : IO UInt32 := do
  match TypedLinks.CommandLine.Options.ofTexts (args.map TypedLinks.Text.ofString) with
  | .error refused =>
    let p := refused.printed
    IO.print (TypedLinks.Program.written p.standard)
    IO.eprint (TypedLinks.Program.written p.error)
    return p.status.toUInt32
  | .ok options => return (← TypedLinks.Program.run options).toUInt32
