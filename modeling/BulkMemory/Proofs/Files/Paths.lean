import Mathlib.Data.List.Basic
import BulkMemory.Path

/-!
# Paths and the directories on the way to them

A path is put together from its segments without loss (`Path.segments_ofSegments`). All paths in the
lineage of a parent begin where the path begins and end, in a segment that matters, before it ends
(`Path.precedes_of_mem_lineage`).
-/

namespace BulkMemory.Path
set_option autoImplicit false

/-! ### Segments -/

theorem segmentsOf_ne_nil (cs : List Char) : segmentsOf cs ≠ [] := by
  cases cs with
  | nil => simp [segmentsOf]
  | cons c cs =>
    rw [segmentsOf]
    split
    · simp
    · split <;> simp

theorem segmentsOf_slash (cs : List Char) : segmentsOf ('/' :: cs) = [] :: segmentsOf cs := by
  obtain ⟨s, rest, hs⟩ := List.exists_cons_of_ne_nil (segmentsOf_ne_nil cs)
  rw [segmentsOf, hs]
  rfl

theorem segmentsOf_cons {c : Char} (hc : c ≠ '/') {cs s : List Char} {rest : List (List Char)}
    (hs : segmentsOf cs = s :: rest) : segmentsOf (c :: cs) = (c :: s) :: rest := by
  rw [segmentsOf, hs]
  exact if_neg hc

/-- A text without a slash is its own segment. -/
theorem segmentsOf_of_not_mem {s : List Char} (h : '/' ∉ s) : segmentsOf s = [s] := by
  induction s with
  | nil => rfl
  | cons c s ih =>
    obtain ⟨hc, hs⟩ := List.ne_and_not_mem_of_not_mem_cons h
    exact segmentsOf_cons (Ne.symm hc) (ih hs)

theorem segmentsOf_append {s : List Char} (h : '/' ∉ s) (cs : List Char) :
    segmentsOf (s ++ '/' :: cs) = s :: segmentsOf cs := by
  induction s with
  | nil => exact segmentsOf_slash cs
  | cons c s ih =>
    obtain ⟨hc, hs⟩ := List.ne_and_not_mem_of_not_mem_cons h
    exact segmentsOf_cons (Ne.symm hc) (ih hs)

/-- No segment has a slash in it. -/
theorem slash_not_mem {cs s : List Char} (h : s ∈ segmentsOf cs) : '/' ∉ s := by
  induction cs generalizing s with
  | nil =>
    rw [segmentsOf, List.mem_singleton] at h
    simp [h]
  | cons c cs ih =>
    by_cases hc : c = '/'
    · rw [hc, segmentsOf_slash, List.mem_cons] at h
      rcases h with rfl | h
      · exact List.not_mem_nil
      · exact ih h
    · obtain ⟨t, rest, ht⟩ := List.exists_cons_of_ne_nil (segmentsOf_ne_nil cs)
      rw [segmentsOf_cons hc ht, List.mem_cons] at h
      rcases h with rfl | h
      · exact List.not_mem_cons_of_ne_of_not_mem (Ne.symm hc) (ih (ht ▸ List.mem_cons_self))
      · exact ih (ht ▸ List.mem_cons_of_mem _ h)

theorem slash_not_mem_of_mem_segments {p : Path} {s : String} (h : s ∈ p.segments) :
    '/' ∉ s.toList := by
  obtain ⟨cs, hcs, rfl⟩ := List.mem_map.1 h
  simpa using slash_not_mem hcs

/-- The segments of a path that has been put together are those that it was put together from. -/
theorem segments_ofSegments {ss : List String} (hne : ss ≠ [])
    (h : ∀ s ∈ ss, '/' ∉ s.toList) : (ofSegments ss).segments = ss := by
  rw [segments, ofSegments, String.toList_intercalate]
  induction ss with
  | nil => exact absurd rfl hne
  | cons s ss ih =>
    have hs := h s List.mem_cons_self
    have hrest := fun t ht => h t (List.mem_cons_of_mem s ht)
    cases ss with
    | nil => simp [segmentsOf_of_not_mem hs]
    | cons t ts =>
      have hmap := ih (List.cons_ne_nil t ts) hrest
      simp only [List.map_cons, List.intercalate_cons_cons] at hmap ⊢
      rw [show ("/" : String).toList = ['/'] from rfl] at hmap ⊢
      rw [List.append_assoc, List.singleton_append, segmentsOf_append hs, List.map_cons, hmap,
        String.ofList_toList]

/-- A path begins at the top if something stands behind an empty first segment. -/
theorem isAbsolute_iff (p : Path) :
    p.isAbsolute = true ↔ ∃ s rest, p.segments = "" :: s :: rest := by
  rw [isAbsolute, segments]
  cases p.text.toList with
  | nil => simp [segmentsOf]
  | cons c cs =>
    obtain ⟨s, rest, hs⟩ := List.exists_cons_of_ne_nil (segmentsOf_ne_nil cs)
    by_cases hc : c = '/'
    · simp [hc, segmentsOf_slash, hs]
    · simp [hc, segmentsOf_cons hc hs]

/-- No empty segment is left at the end of a path without empty ones at its end. -/
theorem ne_empty_of_trimmed {p : Path} {front : List String} {last : String}
    (h : p.trimmed = front ++ [last]) : last ≠ "" := by
  have hreverse : p.segments.reverse.dropWhile String.isEmpty = last :: front.reverse := by
    rw [← List.reverse_reverse (List.dropWhile _ _), ← trimmed, h, List.reverse_concat']
  have hlast := List.head?_dropWhile_not String.isEmpty p.segments.reverse
  rw [hreverse] at hlast
  rintro rfl
  simp at hlast

theorem trimmed_prefix (p : Path) : p.trimmed <+: p.segments := by
  have h := List.reverse_prefix.2 (List.dropWhile_suffix String.isEmpty (l := p.segments.reverse))
  rwa [List.reverse_reverse] at h

/-! ### Fronts -/

variable {rs front : List String}

theorem suffix_of_mem_fronts (h : front ∈ fronts rs) : front <:+ rs := by
  induction rs with
  | nil => simp [fronts] at h
  | cons s before ih =>
    rw [fronts] at h
    split at h
    · exact (ih h).trans (List.suffix_cons s before)
    · rcases List.mem_cons.1 h with rfl | h
      · exact List.suffix_rfl
      · exact (ih h).trans (List.suffix_cons s before)

/-- A front ends in a segment that is not empty. -/
theorem exists_cons_of_mem_fronts (h : front ∈ fronts rs) :
    ∃ last before, front = last :: before ∧ last ≠ "" := by
  induction rs with
  | nil => simp [fronts] at h
  | cons s before ih =>
    rw [fronts] at h
    split at h
    · exact ih h
    · rename_i hmatters
      rcases List.mem_cons.1 h with rfl | h
      · exact ⟨s, before, rfl, fun hs => hmatters (by simp [addsNothing, hs])⟩
      · exact ih h

/-- All fronts but the longest leave out a segment. -/
theorem exists_append_of_mem_tail_fronts (h : front ∈ (fronts rs).tail) :
    front ∈ fronts rs ∧ ∃ behind last, rs = behind ++ last :: front := by
  refine ⟨List.mem_of_mem_tail h, ?_⟩
  cases rs with
  | nil => simp [fronts] at h
  | cons s before =>
    have hmem : front ∈ fronts before := by
      rw [fronts] at h
      split at h
      · exact List.mem_of_mem_tail h
      · exact h
    obtain ⟨behind, hbehind⟩ := suffix_of_mem_fronts hmem
    obtain rfl | ⟨behind, last, rfl⟩ := List.eq_nil_or_concat behind
    · exact ⟨[], s, by simp [← hbehind]⟩
    · exact ⟨s :: behind, last, by simp [← hbehind]⟩

theorem segments_of_mem_fronts (hrs : ∀ s ∈ rs, '/' ∉ s.toList) (h : front ∈ fronts rs) :
    (ofSegments front.reverse).segments = front.reverse := by
  obtain ⟨last, before, rfl, -⟩ := exists_cons_of_mem_fronts h
  refine segments_ofSegments (by simp) fun s hs => hrs s ?_
  exact (suffix_of_mem_fronts h).subset (List.mem_reverse.1 hs)

/-! ### Lineage -/

/-- A path that ends, in a segment that is not empty, before another that begins like it. -/
structure Precedes (q p : Path) : Prop where
  trimmed : q.trimmed = q.segments
  absolute : q.isAbsolute = p.isAbsolute
  front : ∃ last back, p.segments = q.segments ++ last :: back

/-- What stands before a path begins where the path begins: no front is an empty segment alone. -/
theorem isAbsolute_eq_of_front {p q : Path} {last : String} {before back : List String}
    (hq : q.segments = before ++ [last]) (hlast : last ≠ "")
    (hp : p.segments = q.segments ++ back) : q.isAbsolute = p.isAbsolute := by
  rw [Bool.eq_iff_iff, isAbsolute_iff, isAbsolute_iff, hp, hq]
  cases before with
  | nil => simp [hlast]
  | cons first before => cases before <;> simp

/-- The directories on the way to a path, and those on the way to them, stand before the path. -/
theorem precedes_of_mem_lineage {p directory q : Path} (hparent : p.parent? = some directory)
    (hq : q ∈ directory.lineage) : q.Precedes p := by
  have hplain : ∀ s ∈ p.segments.reverse, '/' ∉ s.toList := fun s hs =>
    slash_not_mem_of_mem_segments (List.mem_reverse.1 hs)
  have hmem := List.mem_of_head? hparent
  rw [lineage, ← List.map_tail] at hmem
  obtain ⟨upper, hupper, rfl⟩ := List.mem_map.1 hmem
  obtain ⟨hfronts, behind, next, hbehind⟩ := exists_append_of_mem_tail_fronts hupper
  rw [lineage, segments_of_mem_fronts hplain hfronts, List.reverse_reverse] at hq
  obtain ⟨front, hfront, rfl⟩ := List.mem_map.1 hq
  have hsuffix := suffix_of_mem_fronts hfronts
  have hsegments := segments_of_mem_fronts (fun s hs => hplain s (hsuffix.subset hs)) hfront
  obtain ⟨last, before, hcons, hlast⟩ := exists_cons_of_mem_fronts hfront
  obtain ⟨middle, rfl⟩ := suffix_of_mem_fronts hfront
  have hp : p.segments =
      (ofSegments front.reverse).segments ++ (middle.reverse ++ next :: behind.reverse) := by
    rw [hsegments, ← List.reverse_reverse p.segments, hbehind]
    simp
  refine ⟨?_, isAbsolute_eq_of_front (by rw [hsegments, hcons, List.reverse_cons]) hlast hp, ?_⟩
  · rw [trimmed, hsegments, List.reverse_reverse, hcons,
      List.dropWhile_cons_of_neg (by simpa using hlast)]
  · cases h : middle.reverse with
    | nil => exact ⟨next, behind.reverse, by rw [hp, h, List.nil_append]⟩
    | cons s ss => exact ⟨s, ss ++ next :: behind.reverse, by rw [hp, h, List.cons_append]⟩

end BulkMemory.Path
