import BulkMemory.Proofs.Form.Reading

/-!
# What stands in front of a place

The tokens of a text stand in order and none is empty, so an offset between two lexemes tells those
in front of it from those behind it (`Token.filter_stop_le`). `Token.depthAt` is how many groups are
open at an offset.
-/

namespace BulkMemory
set_option autoImplicit false

open Lexeme

theorem byteSize_pos {cs : List Char} (h : cs ≠ []) : 0 < byteSize cs := by
  obtain ⟨c, cs, rfl⟩ := List.exists_cons_of_ne_nil h
  have hc : 0 < c.utf8Size := Char.utf8Size_pos c
  rw [byteSize_cons]
  omega

theorem Lexeme.Tiles.size_pos {ls : List Lexeme} {rest : List Char} (h : Tiles ls rest) :
    ∀ l ∈ ls, 0 < l.size := by
  intro l hl
  obtain ⟨_, hstands⟩ := h.exists_stands l hl
  exact byteSize_pos hstands.text_ne_nil

namespace Token

/-- How many groups are open at an offset: the tokens in front of it open them and do not close
them. -/
def depthAt (ts : List Token) (offset : Nat) : Int :=
  nesting ((ts.filter fun t => t.stop ≤ offset).map toLexeme)

/-- The tokens of a text stand one behind the other. -/
theorem pairwise_placeAll (start : Nat) (position : Position) (ls : List Lexeme) :
    (placeAll start position ls).Pairwise fun t u => t.stop ≤ u.start := by
  induction ls generalizing start position with
  | nil => exact .nil
  | cons l ls ih => exact .cons (fun u hu => (within_of_mem_placeAll hu).1) (ih _ _)

/-- A token of a text begins where the lexemes in front of it end. -/
theorem of_placeAll_eq_append {position : Position} {ls : List Lexeme} {before after : List Token}
    {t : Token} (h : placeAll 0 position ls = before ++ t :: after) :
    ls = before.map toLexeme ++ t.toLexeme :: after.map toLexeme ∧
      t.start = byteSize (chars (before.map toLexeme)) := by
  obtain ⟨as, bs, rfl, rfl, hbehind⟩ := exists_of_placeAll_eq_append h
  have hbs := congrArg (List.map toLexeme) hbehind
  rw [map_toLexeme_placeAll] at hbs ⊢
  refine ⟨by rw [hbs]; rfl, ?_⟩
  cases bs with
  | nil => cases hbehind
  | cons l bs =>
    rw [placeAll, List.cons.injEq, Nat.zero_add] at hbehind
    exact congrArg Token.start hbehind.1.symm

theorem start_lt_stop_of_mem_placeAll {start : Nat} {position : Position} {ls : List Lexeme}
    (h : ∀ l ∈ ls, 0 < l.size) : ∀ t ∈ placeAll start position ls, t.start < t.stop := by
  intro t ht
  have hmem : t.toLexeme ∈ (placeAll start position ls).map toLexeme := List.mem_map_of_mem ht
  rw [map_toLexeme_placeAll] at hmem
  exact Nat.lt_add_of_pos_right (h t.toLexeme hmem)

theorem filter_significant (test : Token → Bool) (ts : List Token) :
    (significant ts).filter test = significant (ts.filter test) := by
  simp only [significant, List.filter_filter, Bool.and_comm]

/-- The tokens in front of an offset. -/
theorem filter_stop_le {us vs : List Token} {offset : Nat} (hus : ∀ u ∈ us, u.stop ≤ offset)
    (hvs : ∀ v ∈ vs, offset < v.stop) :
    (us ++ vs).filter (fun t => t.stop ≤ offset) = us := by
  have hfront : us.filter (fun t => t.stop ≤ offset) = us :=
    List.filter_eq_self.2 fun u hu => by simpa using hus u hu
  have hback : vs.filter (fun t => t.stop ≤ offset) = [] :=
    List.filter_eq_nil_iff.2 fun v hv => by simpa using hvs v hv
  rw [List.filter_append, hfront, hback, List.append_nil]

/-- The tokens behind an offset. -/
theorem filter_lt_stop {us vs : List Token} {offset : Nat} (hus : ∀ u ∈ us, u.stop ≤ offset)
    (hvs : ∀ v ∈ vs, offset < v.stop) :
    (us ++ vs).filter (fun t => offset < t.stop) = vs := by
  have hfront : us.filter (fun t => offset < t.stop) = [] :=
    List.filter_eq_nil_iff.2 fun u hu => by simpa using hus u hu
  have hback : vs.filter (fun t => offset < t.stop) = vs :=
    List.filter_eq_self.2 fun v hv => by simpa using hvs v hv
  rw [List.filter_append, hfront, hback, List.nil_append]

/-- An offset between two lexemes lies behind the one and in front of the other. -/
theorem stop_placeAll_append {front back : List Lexeme} (h : ∀ l ∈ front ++ back, 0 < l.size)
    (position : Position) :
    (∀ u ∈ placeAll 0 position front, u.stop ≤ byteSize (chars front)) ∧
      ∀ v ∈ placeAll (0 + byteSize (chars front)) (position.after (chars front)) back,
        byteSize (chars front) < v.stop := by
  constructor
  · intro t ht
    have hwithin := (within_of_mem_placeAll ht).2
    omega
  · intro t ht
    have hwithin := (within_of_mem_placeAll ht).1
    have hlt := start_lt_stop_of_mem_placeAll (fun l hl => h l (List.mem_append_right front hl)) t ht
    omega

/-- An offset between two parts of a text. -/
theorem filter_stop_le_placeAll {front back : List Lexeme} (h : ∀ l ∈ front ++ back, 0 < l.size)
    (position : Position) :
    (placeAll 0 position (front ++ back)).filter (fun t => t.stop ≤ byteSize (chars front)) =
      placeAll 0 position front := by
  obtain ⟨hfront, hback⟩ := stop_placeAll_append h position
  rw [placeAll_append]
  exact filter_stop_le hfront hback

theorem filter_lt_stop_placeAll {front back : List Lexeme} (h : ∀ l ∈ front ++ back, 0 < l.size)
    (position : Position) :
    (placeAll 0 position (front ++ back)).filter (fun t => byteSize (chars front) < t.stop) =
      placeAll (0 + byteSize (chars front)) (position.after (chars front)) back := by
  obtain ⟨hfront, hback⟩ := stop_placeAll_append h position
  rw [placeAll_append]
  exact filter_lt_stop hfront hback

/-- Where an offset cuts the tokens that carry meaning, it cuts their lexemes. -/
theorem significant_of_append {front back : List Lexeme} (h : ∀ l ∈ front ++ back, 0 < l.size)
    {position : Position} {us vs : List Token}
    (htokens : significant (placeAll 0 position (front ++ back)) = us ++ vs)
    (hus : ∀ u ∈ us, u.stop ≤ byteSize (chars front))
    (hvs : ∀ v ∈ vs, byteSize (chars front) < v.stop) :
    Lexeme.significant front = us.map toLexeme ∧ Lexeme.significant back = vs.map toLexeme := by
  have hcut := congrArg (List.filter fun t : Token => t.stop ≤ byteSize (chars front)) htokens
  rw [filter_stop_le hus hvs, filter_significant, filter_stop_le_placeAll h] at hcut
  have hfront : Lexeme.significant front = us.map toLexeme := by
    rw [← hcut, map_significant_placeAll]
  refine ⟨hfront, ?_⟩
  have hall := congrArg (List.map toLexeme) htokens
  rw [map_significant_placeAll, Lexeme.significant_append, List.map_append, hfront] at hall
  exact List.append_cancel_left hall

/-- Trivia do not change how deep a place lies. -/
theorem depthAt_significant (ts : List Token) (offset : Nat) :
    depthAt (significant ts) offset = depthAt ts offset := by
  have hmeaning := meaning_eq (ts.filter fun t => t.stop ≤ offset)
  rw [depthAt, depthAt, ← nesting_significant (List.map toLexeme (ts.filter _)), ← hmeaning, meaning,
    filter_significant]

theorem depthAt_placeAll {front back : List Lexeme} (h : ∀ l ∈ front ++ back, 0 < l.size)
    (position : Position) :
    depthAt (placeAll 0 position (front ++ back)) (byteSize (chars front)) = nesting front := by
  rw [depthAt, filter_stop_le_placeAll h, map_toLexeme_placeAll]

end Token

end BulkMemory
