import AccessRules.Text.Split
import AccessRules.Wire.Field

/-!
# Responses

A generator answers a request with the files it made, or with what is wrong with the request.
-/

namespace AccessRules.Plugin

open Wire

/-- A file that was generated. -/
structure GeneratedFile where
  name : String
  content : String
deriving DecidableEq, Repr

/-- The answer to a request. -/
structure Response where
  error? : Option String := none
  files : List GeneratedFile := []
deriving DecidableEq, Repr

namespace Response

/-- What generators support, as a set of bits: optional fields of the newer dialect. -/
def supportedFeatures : Nat := 1

/-- The response that reports a problem. -/
def failed (message : String) : Response where
  error? := some message

/-- The response with the files that were made. -/
def made (files : List GeneratedFile) : Response where
  files := files

end Response

/-- The encoding of a file. -/
def GeneratedFile.encode (file : GeneratedFile) : Bytes :=
  writeText 1 file.name ++ writeText 15 file.content

/-- The encoding of a response. -/
def Response.encode (response : Response) : Bytes :=
  (response.error?.map (writeText 1)).getD []
    ++ writeNumber 2 supportedFeatures
    ++ response.files.flatMap fun file => writeBytes 15 file.encode

end AccessRules.Plugin
