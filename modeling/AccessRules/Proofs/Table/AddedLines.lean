import AccessRules.Proofs.Text.Split
import AccessRules.Table.Format

/-!
# Names of definition files in generated modules

The name of the definition file stands in a comment line of the module, and it is written as it is.
A name of one line stays within the comment, so the code of the module depends on the rules alone.
Of a longer name every further line that is no comment itself becomes a line of code; nothing else
of a name does (`codeText_render_eq_iff`).
-/

namespace AccessRules.Table

open AccessRules.Text

/-! ## Lines of code -/

/-- Whether a line is a comment from its beginning on. -/
def isCommentLine (line : Text) : Bool :=
  ['/', '/'].isPrefixOf line

/-- The lines of a text but for the comments. -/
def codeLines (text : Text) : List Text :=
  (splitAt '\n' text).filter (!isCommentLine ·)

/-- The text without its comment lines. -/
def codeText (text : Text) : Text :=
  join ['\n'] (codeLines text)

/-- The lines of code that the name of a definition file adds: those behind its first line. -/
def addedLines (protoFile : String) : List Text :=
  (splitAt '\n' protoFile.toList).tail.filter (!isCommentLine ·)

theorem codeLines_append_lineFeed (a b : Text) :
    codeLines (a ++ '\n' :: b) = codeLines a ++ codeLines b := by
  rw [codeLines, splitAt_append_separator, List.filter_append, codeLines, codeLines]

/-- What is put behind the beginning of a comment goes on as code in the next line only. -/
theorem codeLines_comment {lead : Text} (hlead : isCommentLine lead = true) (h : '\n' ∉ lead)
    (text : Text) :
    codeLines (lead ++ text) = (splitAt '\n' text).tail.filter (!isCommentLine ·) := by
  obtain ⟨first, hparts, hfirst⟩ := splitAt_append_of_not_mem h text
  have hcomment : isCommentLine first = true :=
    List.isPrefixOf_iff_prefix.2 ((List.isPrefixOf_iff_prefix.1 hlead).trans hfirst)
  rw [codeLines, hparts, List.filter_cons_of_neg (by simp [hcomment])]

/-- Texts that have lines of code are told apart by these lines. -/
theorem codeText_eq_iff {a b : Text} (ha : codeLines a ≠ []) (hb : codeLines b ≠ []) :
    codeText a = codeText b ↔ codeLines a = codeLines b := by
  have hparts : ∀ {text : Text}, codeLines text ≠ [] →
      splitAt '\n' (codeText text) = codeLines text := fun hne =>
    splitAt_join hne fun line hline => not_mem_of_mem_splitAt (List.mem_filter.1 hline).1
  refine ⟨fun h => ?_, fun h => by rw [codeText, codeText, h]⟩
  rw [← hparts ha, ← hparts hb, h]

/-! ## The code of a module -/

/-- The first line of a module. -/
@[irreducible]
def notice : Text :=
  "// Code generated by protoc-gen-authz. DO NOT EDIT.".toList

/-- What stands in front of the name of the definition file. -/
@[irreducible]
def nameLead : Text :=
  "// source: ".toList

theorem moduleHeader_eq (protoFile : String) :
    moduleHeader protoFile =
      notice ++ '\n' :: ((nameLead ++ protoFile.toList) ++ '\n' :: ([] ++ ['\n'])) := by
  have hheader : moduleHeader protoFile =
      "// Code generated by protoc-gen-authz. DO NOT EDIT.\n// source: ".toList
        ++ protoFile.toList ++ ['\n', '\n'] := rfl
  have hlead : "// Code generated by protoc-gen-authz. DO NOT EDIT.\n// source: ".toList =
      notice ++ '\n' :: nameLead := by
    unfold notice nameLead
    decide +kernel
  refine hheader.trans ?_
  simp [hlead]

theorem codeLines_renderModule (protoFile : String) (rules : List Rule) :
    codeLines (renderModule protoFile rules) =
      addedLines protoFile ++ [] :: codeLines (moduleBody rules) := by
  have hnotice : codeLines notice = [] := by
    unfold notice
    decide +kernel
  have hlead : isCommentLine nameLead = true ∧ '\n' ∉ nameLead := by
    unfold nameLead
    decide
  have hsource : codeLines (nameLead ++ protoFile.toList) = addedLines protoFile :=
    codeLines_comment hlead.1 hlead.2 protoFile.toList
  have hempty : codeLines [] = [[]] := rfl
  rw [renderModule, moduleHeader_eq, List.append_assoc, List.cons_append, codeLines_append_lineFeed,
    hnotice, List.nil_append, List.append_assoc, List.cons_append, codeLines_append_lineFeed,
    hsource, List.append_assoc, List.cons_append, codeLines_append_lineFeed, hempty,
    List.nil_append, List.singleton_append]

theorem addedLines_eq_nil {protoFile : String} (h : '\n' ∉ protoFile.toList) :
    addedLines protoFile = [] := by
  rw [addedLines, splitAt_of_not_mem h]
  rfl

/-- Two names yield the same code exactly if they add the same lines; a name of one line adds none,
and then the code depends on the rules alone. -/
theorem codeText_render_eq_iff (first second : String) (rules : List Rule) :
    (codeText (render .rust first rules) = codeText (render .rust second rules) ↔
        addedLines first = addedLines second) ∧
      ('\n' ∉ first.toList →
        codeText (render .rust first rules) = join ['\n'] ([] :: codeLines (moduleBody rules))) := by
  have hcode : ∀ name, codeLines (render .rust name rules) =
      addedLines name ++ [] :: codeLines (moduleBody rules) := fun name =>
    codeLines_renderModule name rules
  have hne : ∀ name, codeLines (render .rust name rules) ≠ [] := fun name => by
    rw [hcode]
    exact List.append_ne_nil_of_right_ne_nil _ (List.cons_ne_nil _ _)
  refine ⟨?_, fun h => ?_⟩
  · rw [codeText_eq_iff (hne first) (hne second), hcode, hcode]
    exact List.append_left_inj _
  · rw [codeText, hcode, addedLines_eq_nil h, List.nil_append]

/-- Names of one line leave the code as it is. -/
theorem codeText_render_plainNames :
    '\n' ∉ "a/b.proto".toList ∧
      codeText (render .rust "a/b.proto" []) = codeText (render .rust "c\r//d.proto" []) ∧
      codeText (render .rust "a/b.proto" []) = join ['\n'] ([] :: codeLines (moduleBody [])) := by
  have hname : '\n' ∉ "a/b.proto".toList := by decide
  obtain ⟨hsame, halone⟩ := codeText_render_eq_iff "a/b.proto" "c\r//d.proto" []
  exact ⟨hname, hsame.2 (by decide), halone hname⟩

/-- A line feed in a name ends the comment, and what follows becomes code. -/
theorem codeText_render_longName :
    codeText (render .rust "a\nconst X: u8 = 0;" []) ≠ codeText (render .rust "a" []) := by
  decide +kernel

end AccessRules.Table
