import AccessRules.Schema.Declaration

/-!
# Checks on declarations

What single declarations have to satisfy, apart from the names of types: numbers, choices, names of
fields in JSON, and places of imports.
-/

namespace AccessRules.Schema

/-- The dialect called `name`; the older one where none is given. -/
def Dialect.ofName? : Option String → Option Dialect
  | none => some .proto2
  | some "proto2" => some .proto2
  | some "proto3" => some .proto3
  | some _ => none

/-! ## Fields -/

/-- Numbers that no field may have. -/
def systemNumbers : NumberRange := ⟨19000, 20000⟩

/-- Numbers that fields may have, but for those of the system. -/
def fieldNumbers : NumberRange := ⟨1, 1 <<< 29⟩

/-- The text with each character behind an underscore in upper case, and without underscores. -/
def camelCase : List Char → List Char
  | [] => []
  | '_' :: '_' :: rest => camelCase ('_' :: rest)
  | '_' :: c :: rest => c.toUpper :: camelCase rest
  | ['_'] => []
  | c :: rest => c :: camelCase rest

namespace FieldDecl

/-- The name of the field in JSON. -/
def jsonName (field : FieldDecl) : String :=
  field.jsonName?.getD (String.ofList (camelCase field.name.toList))

/-- The name in lower case and without underscores. -/
def plainName (field : FieldDecl) : String :=
  String.ofList ((field.name.toList.filter (· ≠ '_')).map Char.toLower)

end FieldDecl

namespace MessageDecl

/-- Whether a field of the message, or an extension of it, may have its number. Some numbers are
left to fields that extend a message, and only they may have them. -/
def allows (declared : MessageDecl) (field : FieldDecl) : Bool :=
  fieldNumbers.contains field.number && !systemNumbers.contains field.number
    && declared.reservedRanges.all (!·.contains field.number)
    && declared.extensionRanges.any (·.range.contains field.number) == field.extendee?.isSome

/-- Whether the fields can be told apart by their names in JSON and, in the newer dialect, by their
plain names. -/
def namesDiffer (dialect : Dialect) (declared : MessageDecl) : Bool :=
  decide (declared.fields.map FieldDecl.jsonName).Nodup
    && (dialect = .proto2 || decide (declared.fields.map FieldDecl.plainName).Nodup)

/-- Whether the numbers, names and choices of the fields are in order. -/
def isConsistent (dialect : Dialect) (declared : MessageDecl) : Bool :=
  declared.fields.all declared.allows
    && decide (declared.fields.map FieldDecl.number).Nodup
    && declared.namesDiffer dialect
    && declared.fields.all fun field =>
      match field.choice? with
      | none => true
      | some choice => 0 ≤ choice && choice < declared.choices.length

/-- Whether the messages are the entries of a map. -/
def isEntry (declared : MessageDecl) : Bool :=
  declared.options.isOn 7

end MessageDecl

/-! ## Enumerations -/

namespace EnumDecl

/-- Whether a written option lets values share a number. -/
def writtenAlias (option : WrittenOption) : Bool :=
  option.path = [⟨"allow_alias", false⟩] && option.identifier? = some "true"

/-- Whether values may share a number. -/
def allowsAlias (declared : EnumDecl) : Bool :=
  declared.options.isOn 2 || declared.options.written.any writtenAlias

/-- Whether the values are in order: there are some, the newer dialect starts with zero, and the
numbers are distinct and not reserved. -/
def isConsistent (dialect : Dialect) (declared : EnumDecl) : Bool :=
  !declared.values.isEmpty
    && (dialect = .proto2 || declared.values.head?.all (·.number = 0))
    && (declared.allowsAlias || decide (declared.values.map EnumValueDecl.number).Nodup)
    && declared.values.all fun value => declared.reservedRanges.all (!·.contains value.number)

end EnumDecl

/-! ## Files -/

namespace FileDecl

/-- All enumerations of the file, each with the scope that declares it. -/
def allEnums (file : FileDecl) : List (String × EnumDecl) :=
  file.messages.flatMap (fun message => message.enums.map fun declared => (message.name, declared))
    ++ file.enums.map fun declared => (file.package, declared)

/-- All extensions that the file declares, each with its scope. -/
def allExtensions (file : FileDecl) : List (String × FieldDecl) :=
  file.messages.flatMap
      (fun message => message.extensions.map fun declared => (message.name, declared))
    ++ file.extensions.map fun declared => (file.package, declared)

/-- Whether all imports are among the files, and the places of special imports among the imports. -/
def importsExist (files : List FileDecl) (file : FileDecl) : Bool :=
  file.imports.all (files.map FileDecl.name).contains
    && (file.publicImports ++ file.weakImports).all fun index =>
      0 ≤ index && index < file.imports.length

end FileDecl

end AccessRules.Schema
