import AccessRules.Proofs.Source.FirstMatch
import AccessRules.Proofs.Source.Located
import AccessRules.Proofs.Text.Utf8

/-!
# Braced spans

A braced span ends at the brace that closes it (`bracedSpan?_eq_some_iff`): between the two as many
braces are closed as opened, and nowhere more before that. So what follows it does not matter, and
two braced spans of one text never cross (`apart_or_inside`): a span that begins within another one
closes within it, since from its beginning on the outer one closes at least as many braces as it
opens. The scan may as well count the open braces down to zero; the counter is never asked to fall
below (`countDown_eq`).

The bytes of a text and its characters have their braces at the same places
(`bracedSpan?_encode`), so the body of a method is what a braced span of the bytes of its text holds
(`exists_span_of_locate`).
-/

namespace AccessRules.Source

open AccessRules.Text Cursor

/-! ## Closing braces of longer and of shorter texts -/

section

variable {α : Type} [HasBraces α] {units v w : List α} {inner n : Nat}

theorem ClosesAt.append (h : ClosesAt inner units n) (more : List α) :
    ClosesAt inner (units ++ more) n := by
  obtain ⟨p, brace, rest, rfl, hlen, hbrace, hp, hw⟩ := h
  exact ⟨p, brace, rest ++ more, by simp, hlen, hbrace, hp, hw⟩

theorem ClosesAt.lt_length (h : ClosesAt inner units n) : n < units.length := by
  obtain ⟨p, brace, rest, rfl, rfl, -⟩ := h
  simp

/-- A part that closes more braces than it opens has a closing brace of its own. -/
theorem exists_closesAt_of_lt (h : opened w < closed w) : ∃ n, ClosesAt 0 w n := by
  have hsome : closingIndex? 0 w ≠ none := fun hnone => by
    have := closingIndex?_eq_none_iff.1 hnone w (List.prefix_refl w)
    omega
  obtain ⟨n, hn⟩ := Option.ne_none_iff_exists'.1 hsome
  exact ⟨n, closingIndex?_eq_some_iff.1 hn⟩

/-- A scan that begins before the closing brace of another one ends there at the latest. -/
theorem ClosesAt.exists_part (h : ClosesAt 0 (v ++ w) n) (hv : v.length ≤ n) :
    ∃ m, ClosesAt 0 w m ∧ v.length + m ≤ n := by
  obtain ⟨p, brace, rest, hunits, rfl, hbrace, hp, hwithin⟩ := h
  obtain ⟨q, rfl⟩ : v <+: p :=
    List.prefix_of_prefix_length_le ⟨w, rfl⟩ ⟨brace :: rest, hunits.symm⟩ hv
  rw [List.append_assoc, List.append_cancel_left_eq] at hunits
  subst hunits
  -- The part before has not closed more than it opened, so the rest must make up for it.
  have hbefore : closed v ≤ opened v := hwithin v (List.prefix_append v q)
  have hlt : opened (q ++ [brace]) < closed (q ++ [brace]) := by
    rw [opened_append, closed_append] at hp
    rw [opened_append, closed_append, (counts_closes hbrace []).1, (counts_closes hbrace []).2]
    simp only [opened_nil, closed_nil]
    omega
  obtain ⟨m, hm⟩ := exists_closesAt_of_lt hlt
  have hmlt := hm.lt_length
  rw [List.length_append, List.length_singleton] at hmlt
  refine ⟨m, ?_, ?_⟩
  · have := hm.append rest
    rwa [List.append_assoc, List.singleton_append] at this
  · rw [List.length_append]
    omega

end

/-! ## Counting down -/

/-- A counter would fall below zero. -/
structure Underflow where

/-- The scan with a counter: how many braces are open, the one before the span among them. It gives
the place of the brace with which the counter comes to zero; `offset` is where the units begin. -/
def countDown {α : Type} [HasBraces α] (offset depth : Nat) :
    List α → Except Underflow (Option Nat)
  | [] => .ok none
  | unit :: units =>
    match HasBraces.nesting unit with
    | .opens => countDown (offset + 1) (depth + 1) units
    | .keeps => countDown (offset + 1) depth units
    | .closes =>
      match depth with
      | 0 => .error {}
      | 1 => .ok (some offset)
      | depth + 2 => countDown (offset + 1) (depth + 1) units

/-- Begun with one open brace or more, the counter never underflows, and the scan ends where the
search for the closing brace does. -/
theorem countDown_eq {α : Type} [HasBraces α] (offset inner : Nat) (units : List α) :
    countDown offset (inner + 1) units =
      .ok ((closingIndex? inner units).map (offset + ·)) := by
  induction units generalizing offset inner with
  | nil => rfl
  | cons unit units ih =>
      have hstep : ∀ inner', countDown (offset + 1) (inner' + 1) units =
          .ok (((closingIndex? inner' units).map (· + 1)).map (offset + ·)) := fun inner' => by
        rw [ih, Option.map_map]
        congr 2
        funext n
        simp only [Function.comp_apply]
        omega
      cases h : HasBraces.nesting unit with
      | opens => simp only [countDown, closingIndex?, h, hstep]
      | keeps => simp only [countDown, closingIndex?, h, hstep]
      | closes =>
          cases inner with
          | zero => simp [countDown, closingIndex?, h]
          | succ inner => simp only [countDown, closingIndex?, h, hstep]

/-! ## Spans of bytes -/

namespace Span

/-- One of the spans ends before the other one begins. -/
def Apart (s t : Span) : Prop :=
  s.stop ≤ t.start ∨ t.stop ≤ s.start

/-- The span begins and ends within `t`. -/
def Inside (s t : Span) : Prop :=
  t.start ≤ s.start ∧ s.stop ≤ t.stop

/-- The span ends before the closing brace of what was opened just before it. -/
structure Encloses (bytes : List UInt8) (span : Span) : Prop where
  le : span.start ≤ span.stop
  lt : span.stop < bytes.length
  brace : bytes[span.stop]? = some 0x7d
  balanced : (span.slice bytes).count 0x7b = (span.slice bytes).count 0x7d
  within : ∀ p, p <+: span.slice bytes → p.count 0x7d ≤ p.count 0x7b

end Span

theorem nesting_byte_eq_opens_iff {b : UInt8} : HasBraces.nesting b = .opens ↔ b = 0x7b :=
  ite_eq_opens_iff

theorem nesting_byte_eq_closes_iff {b : UInt8} : HasBraces.nesting b = .closes ↔ b = 0x7d :=
  ite_eq_closes_iff (by decide)

theorem opened_bytes (bytes : List UInt8) : opened bytes = bytes.count 0x7b := by
  simp only [opened, nesting_byte_eq_opens_iff]
  rfl

theorem closed_bytes (bytes : List UInt8) : closed bytes = bytes.count 0x7d := by
  simp only [closed, nesting_byte_eq_closes_iff]
  rfl

section

variable {bytes : List UInt8} {start stop n : Nat} {span : Span}

theorem Span.encloses_iff : Span.Encloses bytes ⟨start, start + n⟩ ↔
    start ≤ bytes.length ∧ ClosesAt 0 (bytes.drop start) n := by
  have hslice : (Span.mk start (start + n)).slice bytes = (bytes.drop start).take n := by
    simp [Span.slice]
  constructor
  · intro h
    have hlt := h.lt
    have hbrace := h.brace
    have hbalanced := h.balanced
    have hwithin := h.within
    simp only [hslice, ← opened_bytes, ← closed_bytes] at hlt hbrace hbalanced hwithin
    rw [← List.getElem?_drop] at hbrace
    obtain ⟨hn, hget⟩ := List.getElem?_eq_some_iff.1 hbrace
    refine ⟨by omega, (bytes.drop start).take n, 0x7d, (bytes.drop start).drop (n + 1), ?_, ?_,
      nesting_byte_eq_closes_iff.2 rfl, hbalanced.symm, hwithin⟩
    · rw [← hget, ← List.drop_eq_getElem_cons hn, List.take_append_drop]
    · rw [List.length_take]
      omega
  · rintro ⟨hle, p, brace, rest, hdrop, rfl, hbrace, hp, hwithin⟩
    obtain rfl := nesting_byte_eq_closes_iff.1 hbrace
    have hlen := congrArg List.length hdrop
    rw [List.length_drop, List.length_append, List.length_cons] at hlen
    rw [hdrop, List.take_left] at hslice
    refine ⟨Nat.le_add_right _ _, by dsimp only; omega, ?_, ?_, ?_⟩
    · rw [← List.getElem?_drop, hdrop]
      simp
    · rw [hslice, ← opened_bytes, ← closed_bytes]
      exact hp.symm
    · intro q hq
      rw [hslice] at hq
      rw [← opened_bytes, ← closed_bytes]
      exact hwithin q hq

theorem bracedSpan?_eq_some_iff :
    bracedSpan? bytes start = some span ↔ span.start = start ∧ Span.Encloses bytes span := by
  obtain ⟨start', stop⟩ := span
  rw [bracedSpan?]
  constructor
  · intro h
    split at h
    · rename_i hle
      obtain ⟨n, hn, hspan⟩ := Option.map_eq_some_iff.1 h
      obtain ⟨rfl, rfl⟩ := Span.mk.inj hspan
      exact ⟨rfl, Span.encloses_iff.2 ⟨hle, closingIndex?_eq_some_iff.1 hn⟩⟩
    · cases h
  · rintro ⟨rfl, henc⟩
    obtain ⟨n, rfl⟩ : ∃ n, stop = start' + n := Nat.exists_eq_add_of_le henc.le
    obtain ⟨hle, hcloses⟩ := Span.encloses_iff.1 henc
    rw [if_pos hle, closingIndex?_eq_some_iff.2 hcloses, Option.map_some]

theorem bracedSpan?_eq_none_iff :
    bracedSpan? bytes start = none ↔ ∀ stop, ¬ Span.Encloses bytes ⟨start, stop⟩ := by
  rw [Option.eq_none_iff_forall_ne_some]
  constructor
  · intro h stop henc
    exact h _ (bracedSpan?_eq_some_iff.2 ⟨rfl, henc⟩)
  · intro h span hspan
    obtain ⟨rfl, henc⟩ := bracedSpan?_eq_some_iff.1 hspan
    exact h span.stop henc

theorem Span.Encloses.stop_eq {stop' : Nat} (h : Span.Encloses bytes ⟨start, stop⟩)
    (h' : Span.Encloses bytes ⟨start, stop'⟩) : stop = stop' := by
  have hspan := bracedSpan?_eq_some_iff.2 ⟨rfl, h⟩
  rw [bracedSpan?_eq_some_iff.2 ⟨rfl, h'⟩, Option.some.injEq, Span.mk.injEq] at hspan
  exact hspan.2.symm

theorem Span.Encloses.append (h : Span.Encloses bytes span) (more : List UInt8) :
    Span.Encloses (bytes ++ more) span := by
  obtain ⟨start, stop⟩ := span
  obtain ⟨n, rfl⟩ : ∃ n, stop = start + n := Nat.exists_eq_add_of_le h.le
  obtain ⟨hle, hcloses⟩ := Span.encloses_iff.1 h
  refine Span.encloses_iff.2 ⟨by rw [List.length_append]; omega, ?_⟩
  rw [List.drop_append_of_le_length hle]
  exact hcloses.append more

/-- A span that begins before another one ends, and not before it begins, ends within it. -/
theorem Span.Encloses.stop_le {t : Span} (h : Span.Encloses bytes span)
    (ht : Span.Encloses bytes t) (hstart : span.start ≤ t.start) (hlt : t.start ≤ span.stop) :
    t.stop ≤ span.stop := by
  obtain ⟨start, stop⟩ := span
  obtain ⟨start', stop'⟩ := t
  dsimp only at hstart hlt ⊢
  obtain ⟨n, rfl⟩ : ∃ n, stop = start + n := Nat.exists_eq_add_of_le h.le
  obtain ⟨k, rfl⟩ := Nat.exists_eq_add_of_le hstart
  obtain ⟨hle, hcloses⟩ := Span.encloses_iff.1 h
  have hk : ((bytes.drop start).take k).length = k := by
    have := hcloses.lt_length
    rw [List.length_take]
    omega
  rw [← List.take_append_drop k (bytes.drop start)] at hcloses
  obtain ⟨m, hm, hmle⟩ := hcloses.exists_part (by omega)
  rw [List.drop_drop] at hm
  have hinner : Span.Encloses bytes ⟨start + k, start + k + m⟩ :=
    Span.encloses_iff.2 ⟨by have := h.lt; dsimp only at this; omega, hm⟩
  have := ht.stop_eq hinner
  omega

/-- Two braced spans of one text lie apart, or one of them lies inside the other. -/
theorem apart_or_inside {t : Span} (h : Span.Encloses bytes span) (ht : Span.Encloses bytes t) :
    span.Apart t ∨ span.Inside t ∨ t.Inside span := by
  rcases Nat.le_total span.start t.start with hstart | hstart
  · rcases Nat.le_total span.stop t.start with hapart | hlt
    · exact .inl (.inl hapart)
    · exact .inr (.inr ⟨hstart, h.stop_le ht hstart hlt⟩)
  · rcases Nat.le_total t.stop span.start with hapart | hlt
    · exact .inl (.inr hapart)
    · exact .inr (.inl ⟨hstart, ht.stop_le h hstart hlt⟩)

end

/-- The scan finds exactly the brace that closes what was opened just before `start`, and none
exactly if there is none; counted down, its counter never underflows. So there is one such brace at
most, it stays the same whatever follows the text, and two braced spans never cross. -/
theorem bracedSpan?_decides (bytes : List UInt8) (start : Nat) :
    (∀ span, bracedSpan? bytes start = some span ↔
      span.start = start ∧ Span.Encloses bytes span) ∧
    (bracedSpan? bytes start = none ↔ ∀ stop, ¬ Span.Encloses bytes ⟨start, stop⟩) ∧
    countDown start 1 (bytes.drop start) = .ok ((bracedSpan? bytes start).map Span.stop) ∧
    (∀ stop stop', Span.Encloses bytes ⟨start, stop⟩ → Span.Encloses bytes ⟨start, stop'⟩ →
      stop = stop') ∧
    (∀ span, bracedSpan? bytes start = some span →
      ∀ more, bracedSpan? (bytes ++ more) start = some span) ∧
    ∀ start' span t, bracedSpan? bytes start = some span → bracedSpan? bytes start' = some t →
      span.Apart t ∨ span.Inside t ∨ t.Inside span := by
  refine ⟨fun span => bracedSpan?_eq_some_iff, bracedSpan?_eq_none_iff, ?_,
    fun stop stop' h h' => h.stop_eq h', fun span h more => ?_, fun start' span t h ht => ?_⟩
  · rw [countDown_eq start 0, bracedSpan?]
    split
    · rw [Option.map_map]
      rfl
    · rename_i hlt
      rw [List.drop_eq_nil_of_le (by omega)]
      rfl
  · obtain ⟨hstart, henc⟩ := bracedSpan?_eq_some_iff.1 h
    exact bracedSpan?_eq_some_iff.2 ⟨hstart, henc.append more⟩
  · exact apart_or_inside (bracedSpan?_eq_some_iff.1 h).2 (bracedSpan?_eq_some_iff.1 ht).2

/-- Two blocks, the first with a third one in it. -/
def nestedBlocks : List UInt8 :=
  [0x7b, 0x61, 0x7b, 0x62, 0x7d, 0x7d, 0x7b, 0x63, 0x7d]

theorem bracedSpan?_nestedBlocks :
    bracedSpan? nestedBlocks 1 = some ⟨1, 5⟩ ∧ bracedSpan? nestedBlocks 3 = some ⟨3, 4⟩ ∧
      (∃! stop, Span.Encloses nestedBlocks ⟨1, stop⟩) ∧
      (∀ more, bracedSpan? (nestedBlocks ++ more) 1 = some ⟨1, 5⟩) ∧
      ((Span.mk 1 5).Apart ⟨3, 4⟩ ∨ (Span.mk 1 5).Inside ⟨3, 4⟩ ∨
        (Span.mk 3 4).Inside ⟨1, 5⟩) := by
  have houter : bracedSpan? nestedBlocks 1 = some ⟨1, 5⟩ := by decide
  have hinner : bracedSpan? nestedBlocks 3 = some ⟨3, 4⟩ := by decide
  obtain ⟨hspan, -, -, hunique, hmore, hnested⟩ := bracedSpan?_decides nestedBlocks 1
  have hencloses := ((hspan _).1 houter).2
  refine ⟨houter, hinner, ⟨5, hencloses, fun stop h => ?_⟩, hmore _ houter, ?_⟩
  · exact hunique stop 5 h hencloses
  · exact hnested 3 _ _ houter hinner

/-! ## Bytes and characters -/

/-- A character that is no brace has no brace among its bytes. -/
theorem nesting_eq_keeps_of_mem {c : Char} {b : UInt8} (ho : c ≠ '{') (hc : c ≠ '}')
    (hb : b ∈ String.utf8EncodeChar c) : HasBraces.nesting b = .keeps := by
  have hvalid : c.val.toNat < 1114112 := by
    rcases c.valid with hd | hd <;> omega
  have ho' : c.val.toNat ≠ 0x7b := fun h => ho (Char.ext (UInt32.toNat_inj.1 h))
  have hc' : c.val.toNat ≠ 0x7d := fun h => hc (Char.ext (UInt32.toNat_inj.1 h))
  have hne : b.toNat ≠ 0x7b ∧ b.toNat ≠ 0x7d := by
    unfold String.utf8EncodeChar at hb
    simp only at hb
    split_ifs at hb <;> simp only [List.mem_cons, List.not_mem_nil, or_false] at hb <;>
      rcases hb with rfl | rfl | rfl | rfl <;> simp only [UInt8.toNat_ofNat'] <;> omega
  simp only [HasBraces.nesting]
  rw [if_neg, if_neg]
  · rintro rfl
    exact hne.2 rfl
  · rintro rfl
    exact hne.1 rfl

theorem closingIndex?_append_of_keeps {α : Type} [HasBraces α] {v : List α}
    (hv : ∀ unit ∈ v, HasBraces.nesting unit = .keeps) (inner : Nat) (w : List α) :
    closingIndex? inner (v ++ w) = (closingIndex? inner w).map (· + v.length) := by
  induction v with
  | nil => simp
  | cons unit v ih =>
      simp only [List.mem_cons, forall_eq_or_imp] at hv
      simp only [List.cons_append, closingIndex?, hv.1, ih hv.2, Option.map_map, List.length_cons]
      rfl

/-- The closing brace among the bytes of a text stands behind the bytes of what stands before it. -/
theorem closingIndex?_utf8 (inner : Nat) (r : Text) :
    closingIndex? inner (r.flatMap String.utf8EncodeChar) =
      (closingIndex? inner r).map fun n => byteLength (r.take n) := by
  induction r generalizing inner with
  | nil => rfl
  | cons c r ih =>
      have hstep : ∀ inner', (closingIndex? inner' (r.flatMap String.utf8EncodeChar)).map
            (· + c.utf8Size) = ((closingIndex? inner' r).map (· + 1)).map fun n =>
          byteLength ((c :: r).take n) := fun inner' => by
        rw [ih, Option.map_map, Option.map_map]
        congr 1
        funext n
        simp only [Function.comp_apply, List.take_succ_cons, byteLength_cons]
        omega
      rw [List.flatMap_cons]
      by_cases ho : c = '{'
      · subst ho
        rw [closingIndex?_opens, ← hstep]
        rfl
      · by_cases hc : c = '}'
        · subst hc
          cases inner with
          | zero => rfl
          | succ inner =>
              rw [closingIndex?_closes, ← hstep]
              rfl
        · rw [closingIndex?_keeps ho hc, ← hstep,
            closingIndex?_append_of_keeps (fun b => nesting_eq_keeps_of_mem ho hc),
            String.length_utf8EncodeChar]

theorem length_flatMap_utf8EncodeChar (u : Text) :
    (u.flatMap String.utf8EncodeChar).length = byteLength u := by
  induction u with
  | nil => rfl
  | cons c u ih =>
      rw [List.flatMap_cons, List.length_append, ih, String.length_utf8EncodeChar, byteLength_cons]

/-- A scan of the bytes and a search through the characters cut out the same text. -/
theorem bracedSpan?_encode (u r : Text) :
    bracedSpan? (encode (String.ofList (u ++ r))) (byteLength u) =
      (closingIndex? 0 r).map fun n =>
        ⟨byteLength u, byteLength u + byteLength (r.take n)⟩ := by
  rw [encode_eq, String.toList_ofList, List.flatMap_append, bracedSpan?,
    ← length_flatMap_utf8EncodeChar u, if_pos (by simp), List.drop_left, closingIndex?_utf8,
    Option.map_map]
  rfl

/-- What such a span holds are the bytes of what is cut out. -/
theorem slice_encode (u v w : Text) :
    (Span.mk (byteLength u) (byteLength u + byteLength v)).slice
      (encode (String.ofList (u ++ (v ++ w)))) = encode (String.ofList v) := by
  rw [encode_eq, encode_eq, String.toList_ofList, String.toList_ofList, List.flatMap_append,
    List.flatMap_append, Span.slice, ← length_flatMap_utf8EncodeChar u,
    ← length_flatMap_utf8EncodeChar v]
  simp

/-- The body of a method is what a braced span of the bytes of the text holds. -/
theorem exists_span_of_locate {text method body : Text} (h : locate text method = .block body) :
    ∃ front rest span, text = front ++ rest ∧
      bracedSpan? (encode (String.ofList text)) (byteLength front) = some span ∧
      span.slice (encode (String.ofList text)) = encode (String.ofList body) := by
  obtain ⟨c, d, n, hfind, hclose, rfl⟩ := locate_eq_block_iff.1 h
  obtain ⟨a, w, r, rfl, -, -, rfl⟩ :=
    exists_of_findLive (reads_declaration method (by decide)) hfind
  rw [rest_between] at hclose ⊢
  have hspan := bracedSpan?_encode (a ++ w) r
  rw [hclose, Option.map_some] at hspan
  have hslice := slice_encode (a ++ w) (r.take n) (r.drop n)
  rw [List.take_append_drop] at hslice
  rw [← List.append_assoc]
  exact ⟨a ++ w, r, _, rfl, hspan, hslice⟩

end AccessRules.Source
