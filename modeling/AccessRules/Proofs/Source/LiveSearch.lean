import AccessRules.Proofs.Source.Live

/-!
# Searching past the comments

A search for live matches finds the match at the least place that lies in no comment and at which
the pattern matches (`findLive_eq_some_iff`). Told by byte offsets it is a loop
(`CommentMap.Tries`): it looks for a match from an offset on, and where the match begins in a
comment it goes on behind the first character of the match. At an offset that is no place of the
text, no match could be looked for. But no comment reaches over the end of its text
(`stop_le_of_mem_spans`), so the loop only comes to places of the text, each further on than the one
before, and ends with what the search finds (`findLive_decides`).
-/

namespace AccessRules.Source

open AccessRules.Text Cursor

/-! ## Live matches -/

/-- The place at a byte offset is in no comment. -/
def CommentMap.Outside (comments : CommentMap) (offset : Nat) : Prop :=
  ∀ region ∈ comments.spans, ¬ (region.start ≤ offset ∧ offset < region.stop)

/-- In `text` the pattern matches behind `u`, where `r` follows, up to `stop`, and no comment of the
text lies over that place. -/
structure LiveMatch (text : Text) (p : Pattern) (u r : Text) (stop : Cursor) : Prop where
  cut : text = u ++ r
  outside : (CommentMap.ofText text).Outside (byteLength u)
  reads : p (between u r) = some stop

/-- The live match begins at the least offset of all. -/
structure FirstLiveMatch (text : Text) (p : Pattern) (u r : Text) (stop : Cursor) : Prop
    extends LiveMatch text p u r stop where
  first : ∀ v s stop', LiveMatch text p v s stop' → byteLength u ≤ byteLength v

section

variable {text : Text} {p : Pattern} {u r v s : Text} {stop : Cursor}

theorem CommentMap.contains_eq_false_iff {comments : CommentMap} {offset : Nat} :
    comments.contains offset = false ↔ comments.Outside offset := by
  simp [CommentMap.contains, CommentMap.Outside, Span.contains]

theorem liveMatch_iff (h : text = u ++ r) : LiveMatch text p u r stop ↔
    (CommentMap.ofText text).live p (between u r) = some stop := by
  cases hc : (CommentMap.ofText text).contains (byteLength u) with
  | true =>
      rw [CommentMap.live_of_contains hc]
      refine iff_of_false (fun hlive => ?_) (by simp)
      rw [CommentMap.contains_eq_false_iff.2 hlive.outside] at hc
      cases hc
  | false =>
      rw [CommentMap.live_of_not_contains hc]
      exact ⟨fun hlive => hlive.reads, fun hp => ⟨h, CommentMap.contains_eq_false_iff.1 hc, hp⟩⟩

theorem live_eq_none_iff (h : text = u ++ r) :
    (CommentMap.ofText text).live p (between u r) = none ↔
      ∀ stop, ¬ LiveMatch text p u r stop := by
  simp only [liveMatch_iff h, Option.eq_none_iff_forall_ne_some, ne_eq]

/-- The search gives the live match at the least place. -/
theorem findLive_eq_some_iff {c : Cursor} :
    (CommentMap.ofText text).findLive p (.start text) = some (c, stop) ↔
      ∃ u r, c = between u r ∧ FirstLiveMatch text p u r stop := by
  rw [CommentMap.findLive_eq_findFirst, start_eq_between, findFirst_eq_some_iff]
  constructor
  · rintro ⟨u, r, htext, rfl, hreads, hfirst⟩
    refine ⟨u, r, rfl, (liveMatch_iff htext).2 hreads, fun v s stop' hv => ?_⟩
    by_contra hlt
    have hlen : v.length < u.length := by
      by_contra hle
      rcases Nat.eq_or_lt_of_le (Nat.not_lt.1 hle) with heq | hlt'
      · obtain ⟨rfl, -⟩ := List.append_inj (htext.symm.trans hv.cut) heq
        exact hlt (Nat.le_refl _)
      · exact hlt (Nat.le_of_lt (byteLength_lt_of_length_lt (htext.symm.trans hv.cut) hlt'))
    exact (live_eq_none_iff hv.cut).1 (hfirst v s hv.cut hlen) stop' hv
  · rintro ⟨u, r, rfl, hlive, hfirst⟩
    refine ⟨u, r, hlive.cut, rfl, (liveMatch_iff hlive.cut).1 hlive, fun v s hv hlt => ?_⟩
    refine (live_eq_none_iff hv).2 fun stop' hlive' => ?_
    have hle := hfirst v s stop' hlive'
    have := byteLength_lt_of_length_lt (hv.symm.trans hlive.cut) hlt
    omega

/-- The search finds nothing exactly if there is no live match. -/
theorem findLive_eq_none_iff_not_liveMatch :
    (CommentMap.ofText text).findLive p (.start text) = none ↔
      ∀ u r stop, ¬ LiveMatch text p u r stop := by
  rw [CommentMap.findLive_eq_findFirst, start_eq_between, findFirst_eq_none_iff]
  constructor
  · intro h u r stop hlive
    exact (live_eq_none_iff hlive.cut).1 (h u r hlive.cut) stop hlive
  · intro h u r hcut
    exact (live_eq_none_iff hcut).2 (h u r)

end

/-! ## The end of the text -/

/-- No comment of a text reaches over its end. -/
theorem stop_le_of_mem_spans {text : Text} {region : Span}
    (h : region ∈ (CommentMap.ofText text).spans) : region.stop ≤ byteLength text := by
  obtain ⟨⟨c, d⟩, hmem, rfl⟩ := List.mem_map.1 h
  rcases List.mem_append.1 hmem with hline | hblock
  · exact lineComment_consumes.stop_le_of_mem_findAll hline
  · exact blockComment_consumes.stop_le_of_mem_findAll hblock

/-! ## One pass of the loop -/

/-- The place of the text at a byte offset, if no character is cut there. -/
def placeAt? (text : Text) (offset : Nat) : Option Cursor :=
  ((Cursor.start text).findFirst fun c => if c.offset = offset then some () else none).map (·.1)

theorem placeAt?_append (u r : Text) : placeAt? (u ++ r) (byteLength u) = some (between u r) := by
  have hfind : (between [] (u ++ r)).findFirst
      (fun c => if c.offset = byteLength u then some () else none) = some (between u r, ()) := by
    refine findFirst_eq_some_iff.2 ⟨u, r, rfl, rfl, if_pos rfl, fun v s hv hlt => if_neg ?_⟩
    exact Nat.ne_of_lt (byteLength_lt_of_length_lt hv.symm hlt)
  rw [placeAt?, start_eq_between, hfind, Option.map_some]

/-- What the loop does at an offset. -/
inductive Pass where
  /-- The offset is no place of the text, so that no match can be looked for. -/
  | outOfRange
  /-- The loop ends with what it found. -/
  | ends (found : Option (Cursor × Cursor))
  /-- The match begins in a comment. The loop goes on at the offset. -/
  | retry (offset : Nat)
deriving DecidableEq, Repr

namespace CommentMap

/-- Looks for a match from the offset on. -/
def pass (comments : CommentMap) (text : Text) (p : Pattern) (offset : Nat) : Pass :=
  match placeAt? text offset with
  | none => .outOfRange
  | some c =>
    match c.findFirst p with
    | none => .ends none
    | some (start, stop) =>
      if comments.contains start.offset then
        .retry (start.offset + (start.rest.head?.map Char.utf8Size).getD 1)
      else .ends (some (start, stop))

/-- The loop tries the offsets one after another, and ends with `found` at the last of them. -/
inductive Tries (comments : CommentMap) (text : Text) (p : Pattern) :
    List Nat → Option (Cursor × Cursor) → Prop
  | last {offset found} : comments.pass text p offset = .ends found →
      Tries comments text p [offset] found
  | next {offset offset' offsets found} : comments.pass text p offset = .retry offset' →
      Tries comments text p (offset' :: offsets) found →
      Tries comments text p (offset :: offset' :: offsets) found

section

variable {comments : CommentMap} {text : Text} {p : Pattern}

theorem findLive_of_none {c : Cursor} (h : c.findFirst p = none) :
    comments.findLive p c = none := by
  rw [findLive_eq_findFirst]
  exact findFirst_live_of_none h

theorem findLive_of_outside {c start stop : Cursor} (h : c.findFirst p = some (start, stop))
    (hout : comments.contains start.offset = false) :
    comments.findLive p c = some (start, stop) := by
  rw [findLive_eq_findFirst, findFirst_live_of_some h]
  refine findFirst_of_eq_some ?_
  rw [live_of_not_contains hout]
  exact (findFirst_eq_some h).1

theorem findLive_of_inside {c start stop d : Cursor} (h : c.findFirst p = some (start, stop))
    (hin : comments.contains start.offset = true) (hnext : start.next? = some d) :
    comments.findLive p c = comments.findLive p d := by
  rw [findLive_eq_findFirst, findLive_eq_findFirst, findFirst_live_of_some h]
  exact findFirst_of_next? (live_of_contains hin) hnext

/-- At a place of the text the loop ends with what the search finds from there on, or it goes on at
a place further on from which the search finds the same. -/
theorem pass_cases (hend : ∀ region ∈ comments.spans, region.stop ≤ byteLength text) {u r : Text}
    (htext : text = u ++ r) :
    comments.pass text p (byteLength u) = .ends (comments.findLive p (between u r)) ∨
    ∃ w s, w ≠ [] ∧ r = w ++ s ∧ comments.pass text p (byteLength u) = .retry (byteLength (u ++ w)) ∧
      comments.findLive p (between u r) = comments.findLive p (between (u ++ w) s) := by
  have hplace : placeAt? text (byteLength u) = some (between u r) := by rw [htext, placeAt?_append]
  cases hfind : (between u r).findFirst p with
  | none =>
      left
      rw [findLive_of_none hfind]
      simp only [pass, hplace, hfind]
  | some found =>
      obtain ⟨start, stop⟩ := found
      obtain ⟨w, s, rfl, -, rfl, -⟩ := exists_of_findFirst hfind
      cases hin : comments.contains (byteLength (u ++ w)) with
      | false =>
          left
          rw [findLive_of_outside hfind hin]
          simp only [pass, hplace, hfind, offset_between, hin, Bool.false_eq_true, if_false]
      | true =>
          right
          cases s with
          | nil =>
              -- A comment over this place would reach over the end of the text.
              obtain ⟨region, hmem, hregion⟩ := List.any_eq_true.1 hin
              have := hend region hmem
              simp only [Span.contains, Bool.and_eq_true, decide_eq_true_eq] at hregion
              rw [htext, List.append_nil] at this
              omega
          | cons x s =>
              refine ⟨w ++ [x], s, by simp, by simp, ?_, ?_⟩
              · simp only [pass, hplace, hfind, offset_between, hin, if_true, rest_between,
                  List.head?_cons, Option.map_some, Option.getD_some, ← List.append_assoc,
                  byteLength_concat]
              · rw [findLive_of_inside hfind hin (next?_between_cons _ _ _), List.append_assoc]

/-- From a place of the text on the loop only tries places of the text, each further on than the one
before, and ends with what the search finds. -/
theorem exists_tries (hend : ∀ region ∈ comments.spans, region.stop ≤ byteLength text) {u r : Text}
    (htext : text = u ++ r) :
    ∃ offsets, comments.Tries text p (byteLength u :: offsets) (comments.findLive p (between u r)) ∧
      (byteLength u :: offsets).Pairwise (· < ·) ∧
      ∀ offset ∈ byteLength u :: offsets, ∃ v s, text = v ++ s ∧ byteLength v = offset := by
  generalize hn : r.length = n
  induction n using Nat.strongRecOn generalizing u r with
  | ind n ih =>
      rcases pass_cases (p := p) hend htext with hpass | ⟨w, s, hw, rfl, hpass, hfind⟩
      · refine ⟨[], .last hpass, List.pairwise_singleton _ _, fun offset ho => ?_⟩
        obtain rfl := List.mem_singleton.1 ho
        exact ⟨u, r, htext, rfl⟩
      · have hlen : s.length < n := by
          have := List.length_pos_iff.2 hw
          rw [← hn, List.length_append]
          omega
        obtain ⟨offsets, htries, hsorted, hplaces⟩ :=
          ih s.length hlen (u := u ++ w) (r := s) (by simp [htext]) rfl
        have hlt : byteLength u < byteLength (u ++ w) := by
          have := byteLength_pos hw
          rw [byteLength_append]
          omega
        refine ⟨byteLength (u ++ w) :: offsets, .next hpass (hfind ▸ htries), ?_, ?_⟩
        · refine List.pairwise_cons.2 ⟨fun offset ho => ?_, hsorted⟩
          rcases List.mem_cons.1 ho with rfl | ho
          · exact hlt
          · exact Nat.lt_trans hlt ((List.pairwise_cons.1 hsorted).1 offset ho)
        · intro offset ho
          rcases List.mem_cons.1 ho with rfl | ho
          · exact ⟨u, w ++ s, htext, rfl⟩
          · exact hplaces offset ho

end

end CommentMap

/-! ## The whole search -/

/-- The search for live matches gives the match at the least place outside the comments at which the
pattern matches, and nothing exactly if there is none. The loop over byte offsets comes to it: from
the beginning on it tries places of the text, each further on than the one before, and none behind
the end of the text, over which no comment lies. -/
theorem findLive_decides (text : Text) (p : Pattern) :
    (∀ c stop, (CommentMap.ofText text).findLive p (.start text) = some (c, stop) ↔
      ∃ u r, c = between u r ∧ FirstLiveMatch text p u r stop) ∧
    ((CommentMap.ofText text).findLive p (.start text) = none ↔
      ∀ u r stop, ¬ LiveMatch text p u r stop) ∧
    (∃ offsets, (CommentMap.ofText text).Tries text p (0 :: offsets)
        ((CommentMap.ofText text).findLive p (.start text)) ∧
      (0 :: offsets).Pairwise (· < ·) ∧
      ∀ offset ∈ 0 :: offsets,
        offset ≤ byteLength text ∧ ∃ u r, text = u ++ r ∧ byteLength u = offset) ∧
    (CommentMap.ofText text).Outside (byteLength text) := by
  refine ⟨fun c stop => findLive_eq_some_iff, findLive_eq_none_iff_not_liveMatch, ?_, ?_⟩
  · obtain ⟨offsets, htries, hsorted, hplaces⟩ :=
      CommentMap.exists_tries (p := p) (fun _ => stop_le_of_mem_spans) (List.nil_append text).symm
    refine ⟨offsets, htries, hsorted, fun offset ho => ?_⟩
    obtain ⟨u, r, rfl, rfl⟩ := hplaces offset ho
    refine ⟨?_, u, r, rfl, rfl⟩
    rw [byteLength_append]
    exact Nat.le_add_right _ _
  · rintro region hmem ⟨-, hlt⟩
    have := stop_le_of_mem_spans hmem
    omega

/-- A letter of two bytes in a comment, and the same letter behind the comment. -/
def commentedLetter : Text :=
  "/*é*/é".toList

theorem findLive_commentedLetter :
    (∃ u r, between "/*é*/".toList ['é'] = between u r ∧
      FirstLiveMatch commentedLetter (Pattern.literal ['é']) u r (between commentedLetter [])) ∧
    (CommentMap.ofText commentedLetter).Tries commentedLetter (Pattern.literal ['é']) [0, 4]
      (some (between "/*é*/".toList ['é'], between commentedLetter [])) := by
  have hfound : (CommentMap.ofText commentedLetter).findLive (Pattern.literal ['é'])
      (.start commentedLetter) =
        some (between "/*é*/".toList ['é'], between commentedLetter []) := by decide +kernel
  have hdecides := findLive_decides commentedLetter (Pattern.literal ['é'])
  exact ⟨(hdecides.1 _ _).1 hfound, .next (by decide +kernel) (.last (by decide +kernel))⟩

end AccessRules.Source
