import AccessRules.Proofs.Text.Reader
import AccessRules.Proofs.Text.Split
import AccessRules.Table.Format

/-!
# Reading a generated module

A reader of the part of a generated module that depends on the rules. It takes the texts around
the table as they stand, the table itself by the syntax of its entries, and it decodes string
literals by their escapes, whichever characters were escaped (`readModule_moduleBody`).
-/

namespace AccessRules.Table

open AccessRules.Text

/-- An entry of the table as a program that holds the module sees it. -/
structure Row where
  path : String
  method : String
  permissions : List String
  noAuthRequired : Bool
deriving DecidableEq, Repr, Inhabited

/-- The entry that stands for a rule. -/
def Row.of (rule : Rule) : Row where
  path := rule.path
  method := rule.verb.name
  permissions := rule.permissions
  noAuthRequired := rule.noAuthRequired

/-- What the function of the module answers: the entries are searched from the last one back. -/
def lookup (rows : List Row) (path method : String) : Option Row :=
  rows.reverse.find? fun row => row.path = path && row.method = method

/-! ## String literals -/

/-- The character of an escape, read behind the backslash. -/
def readEscape : Reader Char
  | '0' :: text => some ('\x00', text)
  | 't' :: text => some ('\t', text)
  | 'r' :: text => some ('\r', text)
  | 'n' :: text => some ('\n', text)
  | '"' :: text => some ('"', text)
  | '\\' :: text => some ('\\', text)
  | 'u' :: '{' :: text =>
    match Reader.span isHexDigit text with
    | (digits, '}' :: rest) =>
      let n := digitsValue 16 digits
      if digits ≠ [] ∧ digits.length ≤ 6 ∧ n.isValidChar then some (Char.ofNat n, rest) else none
    | _ => none
  | _ => none

/-- A character of a string literal; none at the quote that ends it. -/
def readChar : Reader Char
  | '\\' :: text => readEscape text
  | c :: text => if c = '"' ∨ c = '\r' then none else some (c, text)
  | [] => none

def readLiteral : Reader String := fun text => do
  let ((), text) ← Reader.literal ['"'] text
  let (chars, text) := Reader.many readChar text
  let ((), text) ← Reader.literal ['"'] text
  some (String.ofList chars, text)

theorem readEscape_hexDigits (c : Char) (text : Text) :
    readEscape ('u' :: '{' :: (hexDigits c.toNat ++ '}' :: text)) = some (c, text) := by
  have hspan : Reader.span isHexDigit (hexDigits c.toNat ++ '}' :: text) =
      (hexDigits c.toNat, '}' :: text) :=
    Reader.span_append (fun _ => isHexDigit_of_mem_hexDigits) (by simp; decide)
  have hvalid : c.toNat.isValidChar := c.valid
  simp only [readEscape, hspan, digitsValue_hexDigits, Char.ofNat_toNat, ne_eq,
    hexDigits_ne_nil, not_false_eq_true, length_hexDigits_le, hvalid, and_self, if_true]

theorem readChar_literalChar (c : Char) (text : Text) :
    readChar (literalChar c ++ text) = some (c, text) := by
  rw [literalChar]
  split_ifs with hnull htab hreturn hfeed hquote hslash hgraphic
  · rw [hnull]; rfl
  · rw [htab]; rfl
  · rw [hreturn]; rfl
  · rw [hfeed]; rfl
  · rw [hquote]; rfl
  · rw [hslash]; rfl
  -- Escaped or not, a character beyond these is read back alike.
  · simp [readChar, hquote, hreturn]
  · simpa [readChar] using readEscape_hexDigits c text

theorem literalChar_ne_nil (c : Char) : literalChar c ≠ [] := by
  rw [literalChar]
  split_ifs <;> simp

theorem readLiteral_literal (value : String) (text : Text) :
    readLiteral (literal value ++ text) = some (value, text) := by
  have hmany : Reader.many readChar (value.toList.flatMap literalChar ++ '"' :: text) =
      (value.toList, '"' :: text) := by
    simpa using Reader.many_flatMap id value.toList
      (fun c _ => readChar_literalChar c) (fun c _ => literalChar_ne_nil c)
      (show readChar ('"' :: text) = none by simp [readChar])
  simp [readLiteral, literal, Reader.literal, hmany]

/-! ## Entries -/

/-- A further literal of a list, behind a comma and a space. -/
def readFurther : Reader String := fun text => do
  let ((), text) ← Reader.literal [',', ' '] text
  readLiteral text

def readLiterals (text : Text) : List String × Text :=
  match readLiteral text with
  | none => ([], text)
  | some (first, text) =>
    let (others, text) := Reader.many readFurther text
    (first :: others, text)

def readFlag : Reader Bool := fun text =>
  match Reader.literal "true".toList text with
  | some ((), text) => some (true, text)
  | none => do
    let ((), text) ← Reader.literal "false".toList text
    some (false, text)

def readRow : Reader Row := fun text => do
  let ((), text) ← Reader.literal "    AuthzRule \x7b\n        path: ".toList text
  let (path, text) ← readLiteral text
  let ((), text) ← Reader.literal ",\n        method: ".toList text
  let (method, text) ← readLiteral text
  let ((), text) ← Reader.literal ",\n        permissions: &[".toList text
  let (permissions, text) := readLiterals text
  let ((), text) ← Reader.literal "],\n        no_auth_required: ".toList text
  let (noAuthRequired, text) ← readFlag text
  let ((), text) ← Reader.literal ",\n    \x7d,\n".toList text
  some (⟨path, method, permissions, noAuthRequired⟩, text)

theorem readLiterals_join (values : List String) {text : Text} (htext : text.head? = some ']') :
    readLiterals (join [',', ' '] (values.map literal) ++ text) = (values, text) := by
  -- The bracket behind the list is where no further literal begins.
  obtain ⟨text, rfl⟩ := List.head?_eq_some_iff.1 htext
  cases values with
  | nil => simp [readLiterals, readLiteral, Reader.literal, join]
  | cons first others =>
      have hfurther (value : String) (rest : Text) :
          readFurther ([',', ' '] ++ literal value ++ rest) = some (value, rest) := by
        simp only [readFurther, List.append_assoc, Reader.literal_append, Option.bind_eq_bind,
          Option.bind_some, readLiteral_literal]
      have hend : readFurther (']' :: text) = none := by
        simp [readFurther, Reader.literal]
      have hmany := Reader.many_flatMap id others (fun value _ => hfurther value) (by simp) hend
      rw [List.map_cons, join_cons, List.append_assoc, List.flatMap_map, readLiterals,
        readLiteral_literal]
      simp only [hmany, List.map_id]

theorem readFlag_append (flag : Bool) (text : Text) :
    readFlag ((if flag then "true" else "false").toList ++ text) = some (flag, text) := by
  cases flag with
  | true => simp only [readFlag, if_true, Reader.literal_append]
  | false =>
      have hmiss : Reader.literal "true".toList ("false".toList ++ text) = none := rfl
      simp only [readFlag, Bool.false_eq_true, if_false, hmiss, Reader.literal_append,
        Option.bind_eq_bind, Option.bind_some]

theorem readRow_moduleEntry (rule : Rule) (text : Text) :
    readRow (moduleEntry rule ++ text) = some (Row.of rule, text) := by
  have hclose (rest : Text) :
      ("],\n        no_auth_required: ".toList ++ rest).head? = some ']' := by
    simp
  unfold readRow moduleEntry
  simp only [List.append_assoc, Reader.literal_append, readLiteral_literal,
    readLiterals_join _ (hclose _), readFlag_append, Option.bind_eq_bind, Option.bind_some, Row.of]

theorem moduleEntry_ne_nil (rule : Rule) : moduleEntry rule ≠ [] :=
  List.append_ne_nil_of_right_ne_nil _ (by decide)

theorem readRow_eq_none {text : Text} (htext : text.head? = some ']') : readRow text = none := by
  obtain ⟨text, rfl⟩ := List.head?_eq_some_iff.1 htext
  have hmiss : Reader.literal "    AuthzRule \x7b\n        path: ".toList (']' :: text) = none := by
    simp [Reader.literal]
  unfold readRow
  rw [hmiss, Option.bind_eq_bind, Option.bind_none]

/-! ## The module -/

/-- The entries of a module, read off the part that depends on the rules. -/
def readModule (text : Text) : Option (List Row) := do
  let ((), text) ← Reader.literal (linesText moduleTypes) text
  let (rows, text) := Reader.many readRow text
  let ((), text) ← Reader.literal (linesText moduleLookup) text
  if text = [] then some rows else none

/-- A module reads back to its rules: all of them, in order, with every character of their
strings. -/
theorem readModule_moduleBody (rules : List Rule) :
    readModule (moduleBody rules) = some (rules.map Row.of) := by
  have hend : readRow (linesText moduleLookup) = none := by
    refine readRow_eq_none ?_
    unfold moduleLookup linesText
    rw [List.flatMap_cons]
    rfl
  have hmany := Reader.many_flatMap Row.of rules (fun rule _ => readRow_moduleEntry rule)
    (fun rule _ => moduleEntry_ne_nil rule) hend
  have hlookup := Reader.literal_append (linesText moduleLookup) []
  rw [List.append_nil] at hlookup
  unfold readModule moduleBody
  simp only [List.append_assoc, Reader.literal_append, Option.bind_eq_bind, Option.bind_some, hmany,
    hlookup, if_true]

/-! ## The rules of a module -/

/-- The rule that an entry stands for, if its method is a verb. -/
def Row.rule? (row : Row) : Option Rule := do
  let verb ← Verb.ofName? row.method
  return ⟨row.path, verb, row.permissions, row.noAuthRequired⟩

theorem Row.rule?_of (rule : Rule) : (Row.of rule).rule? = some rule := by
  simp [rule?, of, Verb.ofName?_name]

/-- The rules of a module, read off the part that depends on them. -/
def readRules (text : Text) : Option (List Rule) := do
  (← readModule text).mapM Row.rule?

theorem readRules_moduleBody (rules : List Rule) : readRules (moduleBody rules) = some rules := by
  have hrows : (rules.map Row.of).mapM Row.rule? = some rules := by
    induction rules with
    | nil => rfl
    | cons rule rules ih =>
        rw [List.map_cons, List.mapM_cons, Row.rule?_of, ih]
        rfl
  rw [readRules, readModule_moduleBody, Option.bind_eq_bind, Option.bind_some, hrows]

/-- A module is a header, told by the name of the definition file alone, and a body that reads back
to its rules. So no two lists of rules share a body; and every string ends where its literal ends,
whatever stands behind it. -/
theorem renderModule_reads_back (protoFile : String) (rules : List Rule) :
    render .rust protoFile rules = moduleHeader protoFile ++ moduleBody rules ∧
      readRules (moduleBody rules) = some rules ∧
      Function.Injective moduleBody ∧
      ∀ (value : String) (rest : Text), readLiteral (literal value ++ rest) = some (value, rest) := by
  refine ⟨rfl, readRules_moduleBody rules, fun first second hbody => ?_, readLiteral_literal⟩
  have hread := readRules_moduleBody first
  rw [hbody, readRules_moduleBody second] at hread
  exact (Option.some.inj hread).symm

end AccessRules.Table
