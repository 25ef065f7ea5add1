import TypedLinks.Diagnostic.Problem
import TypedLinks.Disk.Fault
import TypedLinks.Json.Reader
import TypedLinks.Luau.Construction
import TypedLinks.Text.Utf8

/-!
# Early stops

Work that cannot go on stops with a problem, which is reported, or with a crash, for which there is
no diagnostic.
-/

namespace TypedLinks

/-- Why the program gives up without a diagnostic. -/
inductive Crash where
  /-- The nodes of a parsed source cannot be built. -/
  | unbuildable (fault : Luau.NodeFault)
  /-- The sourcemap is no text. -/
  | undecodable (fault : Utf8.Fault)
  /-- The sourcemap holds an integer that is too long to be read. -/
  | integerTooLong
  /-- The option for the sourcemap was given no path. -/
  | noSourcemap
  /-- A path cannot be used. -/
  | disk (fault : DiskFault)

/-- A crash in words. -/
def Crash.message : Crash → Text
  | unbuildable _ => "a parsed source cannot be represented"
  | undecodable fault => fault.message
  | integerTooLong => "the sourcemap holds an integer that is too long"
  | noSourcemap => "no path was given for the sourcemap"
  | disk fault => fault.message

/-- Why work stops early. -/
inductive Stop where
  | problem (p : Problem)
  | crash (c : Crash)

/-- What a fault of the disk stops work with, given the problem of a refused operation. -/
def DiskFault.stop (problem : Text → Problem) (fault : DiskFault) : Stop :=
  match fault with
  | .refused .. | .cycle _ => .problem (problem fault.message)
  | .unusable _ => .crash (.disk fault)

end TypedLinks
