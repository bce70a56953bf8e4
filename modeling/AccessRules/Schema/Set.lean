import AccessRules.Schema.Link

/-!
# Sets of definition files

A pool is read from bytes that hold encoded definition files: a set of them, or a request to a
generator, which also says for which files to generate.
-/

namespace AccessRules.Schema

open Wire

/-- Why bytes cannot be read as a pool. -/
inductive PoolError where
  /-- The bytes are no message of the kind they should be. -/
  | undecodable (what : String)
  /-- The files cannot be read, or they cannot be linked. -/
  | unlinkable
deriving DecidableEq, Repr

/-- The reason in words. -/
def PoolError.message : PoolError → String
  | undecodable what => s!"failed to decode {what}"
  | unlinkable => "invalid file descriptors"

/-- The pool of the encoded files. -/
def Pool.ofFiles (files : List Bytes) : Except PoolError Pool :=
  match (files.mapM FileDecl.ofBytes?).bind link with
  | some pool => .ok pool
  | none => .error .unlinkable

/-- The encoded files of a set. -/
def filesOfSet? (bytes : Bytes) : Option (List Bytes) := do
  all Payload.asBytes? 1 (← readFields maxDepth bytes)

/-- The set of some encoded files. -/
def writeSet (files : List Bytes) : Bytes :=
  files.flatMap (writeBytes 1)

/-- The pool of a set of files that is encoded in one piece. -/
def Pool.linkSet (bytes : Bytes) : Except PoolError Pool :=
  match filesOfSet? bytes with
  | some files => ofFiles files
  | none => .error .unlinkable

/-- The pool of an encoded set of files. Bytes that are no set are told from files that cannot be
linked. -/
def Pool.ofSet (bytes : Bytes) : Except PoolError Pool :=
  match filesOfSet? bytes with
  | some _ => linkSet bytes
  | none => .error (.undecodable "FileDescriptorSet")

/-- A request to a generator. -/
structure Request where
  /-- The files to generate for, in this order. -/
  targets : List String
  parameter? : Option String
  pool : Pool
deriving Repr

namespace Request

/-- The parts of an encoded request; the files among them are still encoded. -/
def parts? (bytes : Bytes) : Option (List String × Option String × List Bytes) := do
  let fields ← readFields maxDepth bytes
  return (← all Payload.asText? 1 fields, ← last Payload.asText? 2 fields,
    ← all Payload.asBytes? 15 fields)

/-- The request that the bytes encode. Its files are encoded as a set again, from which the pool is
made. -/
def read (bytes : Bytes) : Except PoolError Request :=
  match parts? bytes with
  | some (targets, parameter?, files) =>
    return ⟨targets, parameter?, ← Pool.linkSet (writeSet files)⟩
  | none => .error (.undecodable "CodeGeneratorRequest")

end Request

end AccessRules.Schema
