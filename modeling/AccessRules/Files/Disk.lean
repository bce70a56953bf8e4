import AccessRules.Files.ReadError
import AccessRules.Text.Utf8

/-!
# Reading files

A disk says for each path what reading it gives. Extraction reads from a disk that does not change
meanwhile.
-/

namespace AccessRules.Files

/-- What a path leads to. -/
inductive Kind where
  | file
  | directory
deriving DecidableEq, Repr

/-- The files that can be read. -/
structure Disk where
  /-- The bytes of the file at a path. -/
  read : (path : String) → Except ReadError (List UInt8)
  /-- What the path leads to, if to anything. -/
  kind? : (path : String) → Option Kind

namespace Disk

/-- The text of the file at a path. -/
def readText (disk : Disk) (path : String) : Except ReadError String := do
  match Text.decode? (← disk.read path) with
  | some text => return text
  | none => throw .notText

/-- Whether the path leads to a file. -/
def isFile (disk : Disk) (path : String) : Bool :=
  disk.kind? path = some .file

end Disk

/-- The path of `name` seen from `root`. A name that starts with a slash stands for itself. -/
def joinPath (root name : String) : String :=
  if name.toList.head? = some '/' then name
  else if root = "" || root.toList.getLast? = some '/' then root ++ name
  else root ++ "/" ++ name

end AccessRules.Files
