import TypedLinks.Disk.Name
import TypedLinks.Text.Quoted

/-!
# Faults of the disk

Why an operation on a file or a folder fails, and how that is put into words.
-/

namespace TypedLinks

/-- Why the system refuses a path. -/
inductive Refusal where
  /-- There is no such file. -/
  | notFound
  /-- A name that should lead on belongs to no folder. -/
  | notFolder
  /-- A folder stands where a file is wanted. -/
  | isFolder
  /-- A name or the whole path is too long. -/
  | nameTooLong
  /-- Too many links have to be followed. -/
  | tooManyLinks
  /-- Another reason, by its number and its text. -/
  | other (number : Nat) (text : Text)
  deriving DecidableEq

namespace Refusal

/-- The number of a refusal. -/
def number : Refusal → Nat
  | notFound => 2
  | notFolder => 20
  | isFolder => 21
  | nameTooLong => 36
  | tooManyLinks => 40
  | other n _ => n

/-- A refusal in words. -/
def description : Refusal → Text
  | notFound => "No such file or directory"
  | notFolder => "Not a directory"
  | isFolder => "Is a directory"
  | nameTooLong => "File name too long"
  | tooManyLinks => "Too many levels of symbolic links"
  | other _ text => text

/-- Whether a refusal says that nothing is to be found at a path. -/
def meansAbsent : Refusal → Bool
  | notFound | notFolder | tooManyLinks => true
  | isFolder | nameTooLong => false
  | other n _ => n = 9

end Refusal

/-- Why a text cannot be passed on as a path. -/
inductive Unusable where
  /-- It holds a code point that has no bytes. -/
  | unencodable
  /-- It holds a zero, which would end it. -/
  | zero
  deriving DecidableEq, Repr

/-- Why an operation on a path fails. The path is the one that was passed to the system. -/
inductive DiskFault where
  | refused (why : Refusal) (path : Text)
  /-- A link leads back to itself. -/
  | cycle (path : Text)
  | unusable (why : Unusable)
  deriving DecidableEq

/-- A fault in words. -/
def DiskFault.message : DiskFault → Text
  | refused why path =>
    "[Errno " ++ Text.ofNat why.number ++ "] " ++ why.description ++ ": " ++ path.quoted
  | cycle path => "Symlink loop from " ++ path.quoted
  | unusable .unencodable => "surrogates not allowed"
  | unusable .zero => "embedded null byte"

namespace Text

/-- Why a text cannot be a path, if it cannot. -/
def unusable? (t : Text) : Option Unusable :=
  if t.any fun p => p.isSurrogate && !isLooseByte p then some .unencodable
  else if t.any (·.val = 0) then some .zero
  else none

end Text

end TypedLinks
