import AccessRules.Proofs.Extraction.Diagnosis
import AccessRules.Proofs.Extraction.KnownText
import AccessRules.Proofs.Source.FirstMatch
import AccessRules.Proofs.Source.Located

/-!
# Braces that are never closed

The body of a method ends at the brace that closes it, so every brace opened in the body is closed
in it, the one of the access option too. If a brace is reported as never closed, it is the one of
the method (`unmatchedBraces_of_method`).
-/

namespace AccessRules

open AccessRules.Text Cursor Files Source

namespace Source

theorem balanced_of_locate {text method body : Text} (h : locate text method = .block body) :
    Balanced body := by
  obtain ⟨c, d, n, -, hclose, rfl⟩ := locate_eq_block_iff.1 h
  obtain ⟨body, after, hrest, rfl, hbody⟩ := closingIndex?_eq_some_iff_balanced.1 hclose
  rwa [hrest, List.take_left]

/-- An option is closed in any text that closes its braces, wherever its head begins. -/
theorem Balanced.optionBlock_ne {body : Text} (h : Balanced body) (name method context : String) :
    optionBlock name method body ≠ .error (.unmatchedBraces context) := by
  rw [optionBlock]
  split
  · simp
  · rename_i start opening hfind
    obtain ⟨u, w, r, rfl, hmatch, rfl, rfl⟩ := exists_of_findLive (reads_optionHead _) hfind
    obtain ⟨g, s, hr, hs⟩ := exists_gaps_of_optionHead hmatch
    obtain rfl : r = s := congrArg Cursor.rest hs
    rw [hr, g.stem_append_brace] at h
    obtain ⟨n, -, hclose⟩ : ∃ n ≤ r.length, ∀ t, closingIndex? 0 (r ++ t) = some n :=
      Balanced.exists_closing (u := u ++ g.stem name.toList) (by simpa using h)
    have hn : closingIndex? 0 r = some n := by simpa using hclose []
    simp [hn]

end Source

/-! ## Requirements -/

namespace Requirement

theorem read_ne_unmatchedBraces (block : Text) (context : String) :
    read block ≠ .error (.unmatchedBraces context) := by
  intro h
  rw [read, readPermissions] at h
  split at h
  · cases h
  · split at h <;> cases h

theorem ofDocument_eq_unmatchedBraces_iff {option method context : String} {document : Document} :
    ofDocument option document method = .error (.unmatchedBraces context) ↔
      context = s!"method {method}" ∧ locate document.text.toList method.toList = .unmatched := by
  rw [ofDocument]
  cases hlocate : locate document.text.toList method.toList with
  | block body =>
      suffices h : optionBlock option method body >>= read ≠ .error (.unmatchedBraces context) by
        simpa using h
      cases hblock : optionBlock option method body with
      | ok block => exact read_ne_unmatchedBraces block context
      | error failure =>
          intro h
          obtain rfl := Except.error.inj h
          exact (balanced_of_locate hlocate).optionBlock_ne option method context hblock
  | bodiless => simp
  | notFound => simp
  | unmatched => simp [eq_comm]

end Requirement

theorem Extractor.requirement_eq_unmatchedBraces_iff {extractor : Extractor} {disk : Disk}
    {cache : Cache} {file method context : String} :
    (extractor.requirement disk cache file method).1 = .error (.unmatchedBraces context) ↔
      context = s!"method {method}" ∧ ∃ document, (cache.load disk file).1 = .ok document ∧
        locate document.text.toList method.toList = .unmatched := by
  rw [requirement]
  cases hload : cache.load disk file with
  | mk result cache' =>
      cases result with
      | ok document => simp [Requirement.ofDocument_eq_unmatchedBraces_iff]
      | error failure =>
          obtain ⟨path, cause, rfl⟩ := Cache.unreadable_of_load (congrArg Prod.fst hload)
          simp

/-- The two places at which a brace can be left open go by different names. -/
theorem method_ne_authzBlock (method other : String) :
    s!"method {method}" ≠ s!"authz block of method {other}" := by
  intro h
  have hhead := congrArg (fun s : String => s.toList.head?) h
  simp only [String.toList_append, List.head?_append] at hhead
  exact absurd hhead (by simp [toString])

/-- The braces of the body of a method are balanced, so the access option is closed in it, whatever
it is called. So what is extracted for a method fails with an open brace exactly if the body of the
method itself is never closed, and says so. -/
theorem unmatchedBraces_of_method :
    (∀ text method body : Text, locate text method = .block body →
      body.count '{' = body.count '}' ∧ (∀ p, p <+: body → p.count '}' ≤ p.count '{') ∧
      ∀ option name context : String,
        optionBlock option name body ≠ .error (.unmatchedBraces context)) ∧
    ∀ (extractor : Extractor) (disk : Disk) (cache : Cache) (file method : String),
      (∀ context, (extractor.requirement disk cache file method).1 =
          .error (.unmatchedBraces context) ↔
        context = s!"method {method}" ∧ ∃ document, (cache.load disk file).1 = .ok document ∧
          locate document.text.toList method.toList = .unmatched) ∧
      ∀ other : String, (extractor.requirement disk cache file method).1 ≠
        .error (.unmatchedBraces s!"authz block of method {other}") := by
  constructor
  · intro text method body h
    have hbalanced := balanced_of_locate h
    obtain ⟨hcount, hprefix⟩ := balanced_iff.1 hbalanced
    exact ⟨hcount, hprefix, hbalanced.optionBlock_ne⟩
  · intro extractor disk cache file method
    refine ⟨fun context => Extractor.requirement_eq_unmatchedBraces_iff, fun other h => ?_⟩
    exact method_ne_authzBlock method other
      (Extractor.requirement_eq_unmatchedBraces_iff.1 h).1.symm

/-- A method with one closing brace for two that it opens. -/
def oneBraceOpen : String :=
  "rpc Get(A) returns (B) \x7b option (proto.v1.authz) = \x7b \x7d"

/-- With the second brace the option is closed; without it the method is the one left open. -/
theorem unmatchedBraces_oneBraceOpen :
    let extractor : Extractor := ⟨defaultOption, none, {}⟩
    let cache := (Cache.ofRoots []).insert "a.proto" ⟨"a.proto", oneBraceOpen⟩
    locate (oneBraceOpen ++ "\x7d").toList "Get".toList =
        .block " option (proto.v1.authz) = \x7b \x7d".toList ∧
      (∀ option name context : String, optionBlock option name
        " option (proto.v1.authz) = \x7b \x7d".toList ≠ .error (.unmatchedBraces context)) ∧
      (extractor.requirement .empty cache "a.proto" "Get").1 =
        .error (.unmatchedBraces "method Get") := by
  intro extractor cache
  have hblock : locate (oneBraceOpen ++ "\x7d").toList "Get".toList =
      .block " option (proto.v1.authz) = \x7b \x7d".toList := by decide +kernel
  have hopen : locate oneBraceOpen.toList "Get".toList = .unmatched := by decide +kernel
  have hload : (cache.load .empty "a.proto").1 = .ok ⟨"a.proto", oneBraceOpen⟩ := by rfl
  obtain ⟨-, -, hclosed⟩ := unmatchedBraces_of_method.1 _ _ _ hblock
  obtain ⟨hfails, -⟩ := unmatchedBraces_of_method.2 extractor .empty cache "a.proto" "Get"
  exact ⟨hblock, hclosed, (hfails _).2 ⟨rfl, _, hload, hopen⟩⟩

end AccessRules
