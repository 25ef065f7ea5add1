import TypedLinks.Disk.Fault
import TypedLinks.Path

/-!
# The disk

The operations on files and folders that the program needs.
-/

namespace TypedLinks

/-- Access to files and folders. A relative path is read from the working folder. -/
class Disk (m : Type → Type) where
  /-- The canonical path of the working folder. -/
  workingFolder : m Path
  /-- The canonical path of something that exists. -/
  canonical : Path → m (Except DiskFault Path)
  /-- The path without links, as far as it exists. -/
  withoutLinks : Path → m (Except DiskFault Path)
  /-- The bytes of a file. -/
  read : Path → m (Except DiskFault (List UInt8))
  /-- Replaces the bytes of a file. -/
  write : Path → List UInt8 → m (Except DiskFault Unit)
  /-- Whether there is a file at a path. -/
  isFile : Path → m (Except DiskFault Bool)
  /-- Whether there is a folder at a path. -/
  isFolder : Path → m (Except DiskFault Bool)
  /-- The names in a folder, in any order. -/
  names : Path → m (Except DiskFault (List Text))

end TypedLinks
