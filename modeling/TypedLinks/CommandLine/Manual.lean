import TypedLinks.CommandLine.Options

/-!
# What the program says of itself

The usage, the help and the version, and what is printed when a command line is not followed.
-/

namespace TypedLinks.CommandLine

/-- The name of the program. -/
def programName : Text := "wally-package-types"

/-- The version of the program. -/
def version : Text := "1.0.0"

/-- How the program is called. -/
def usage : Text :=
  "usage: wally-package-types [-h] -s SOURCEMAP [--dry-run] [-v] [--version]
                           packages_folder
"

/-- The help. -/
def helpText : Text :=
  usage ++ "
Re-export the exported types of Wally packages from their link files.

positional arguments:
  packages_folder       Folder holding the link files (e.g. Packages)

options:
  -h, --help            show this help message and exit
  -s SOURCEMAP, --sourcemap SOURCEMAP
                        Rojo sourcemap of the project (e.g. sourcemap.json)
  --dry-run             Report what would change without writing
  -v, --verbose         Log every step of every file
  --version             show program's version number and exit
"

/-- A line of the program about its own run. -/
def programLine (text : Text) : Text := programName ++ ": " ++ text ++ "\n"

/-- What is printed, and the status that the program exits with. -/
structure Printed where
  standard : Text
  error : Text
  status : Nat
  deriving DecidableEq

/-- What is printed when a command line is not followed. -/
def Refused.printed : Refused → Printed
  | help => ⟨helpText, [], 0⟩
  | version => ⟨programName ++ " " ++ CommandLine.version ++ "\n", [], 0⟩
  | misuse message => ⟨[], usage ++ programLine ("error: " ++ message), 2⟩

end TypedLinks.CommandLine
