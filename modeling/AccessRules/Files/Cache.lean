import AccessRules.Failure
import AccessRules.Files.Disk

/-!
# Source files

The definition files named in descriptors are looked for below a list of roots, the first that
holds a readable file first. What was read once is kept; a failure is not.
-/

namespace AccessRules.Files

/-- The text of a file, and the path it was read from. -/
structure Document where
  path : String
  text : String
deriving DecidableEq, Repr, Inhabited

/-- Source files below some roots, as far as they were read. -/
structure Cache where
  roots : List String
  /-- The files known so far, by their names; the first entry for a name counts. -/
  documents : List (String × Document) := []
deriving Repr

namespace Cache

/-- An empty cache. Without roots, files are looked for in the working directory. -/
def ofRoots (roots : List String) : Cache where
  roots := if roots = [] then ["."] else roots

/-- The document kept for a name. -/
def get? (cache : Cache) (name : String) : Option Document :=
  cache.documents.lookup name

/-- Keeps a document for a name, in place of the one before. -/
def insert (cache : Cache) (name : String) (document : Document) : Cache :=
  { cache with documents := (name, document) :: cache.documents }

/-- Reads a file below the first root that has it. If none has, the failure is that of the last. -/
def readBelow (disk : Disk) (name : String) : (roots : List String) → Except Failure Document
  | [] => .error (.unreadable name .missing)
  | root :: roots =>
    let path := joinPath root name
    match disk.readText path, roots with
    | .ok text, _ => .ok ⟨path, text⟩
    | .error cause, [] => .error (.unreadable path cause)
    | .error _, _ :: _ => readBelow disk name roots

/-- The document for a name: the one kept, or else the one on the disk, which is kept from now
on. -/
def load (cache : Cache) (disk : Disk) (name : String) : Except Failure Document × Cache :=
  match cache.get? name with
  | some document => (.ok document, cache)
  | none =>
    match readBelow disk name cache.roots with
    | .ok document => (.ok document, cache.insert name document)
    | .error failure => (.error failure, cache)

@[simp] theorem get?_insert_self (cache : Cache) (name : String) (document : Document) :
    (cache.insert name document).get? name = some document := by
  simp [get?, insert]

theorem get?_insert_of_ne (cache : Cache) {name other : String} (document : Document)
    (h : other ≠ name) : (cache.insert name document).get? other = cache.get? other := by
  simp [get?, insert, List.lookup_cons, beq_false_of_ne h]

end Cache

end AccessRules.Files
