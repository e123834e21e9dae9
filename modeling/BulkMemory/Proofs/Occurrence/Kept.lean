import BulkMemory.Proofs.Form.Reading
import BulkMemory.Proofs.Occurrence.Relex

/-!
# What an exchange keeps

What becomes of a lexeme stands behind what becomes of the text in front of it, unless an instruction
takes the lexeme for an index (`Lexeme.exchanged_append_cons`). An instruction takes no parenthesis, so an
exchange opens and closes the same groups (`Lexeme.nesting_exchanged`).
-/

namespace BulkMemory
set_option autoImplicit false

variable {rs : List Replacement}

/-- Whether a token belongs to an instruction that is exchanged: to its mnemonic, to an index that it
takes, or to the trivia between them. -/
def Occurrence.Takes (o : Occurrence) (t : Token) : Prop :=
  o.span.start ≤ t.start ∧ t.stop ≤ o.span.stop

/-- Where indices end does not depend on what follows them. -/
theorem splitTaken_change {α : Type} {view : α → Lexeme} {count : Nat} {xs gap rest : List α}
    (h : splitTaken view count xs = some (gap, rest)) (rest' : List α) :
    splitTaken view count (gap ++ rest') = some (gap, rest') := by
  fun_induction splitTaken view count xs generalizing gap rest with
  | case1 =>
    cases h
    exact splitTaken.eq_1 view rest'
  | case2 | case5 => cases h
  | case3 count x xs htrivia ih =>
    obtain ⟨⟨gap', rest''⟩, hsplit, heq⟩ := Option.map_eq_some_iff.1 h
    cases heq
    rw [List.cons_append, splitTaken, if_pos htrivia, ih hsplit]
    rfl
  | case4 count x xs htrivia hzero ih =>
    obtain ⟨⟨gap', rest''⟩, hsplit, heq⟩ := Option.map_eq_some_iff.1 h
    cases heq
    rw [List.cons_append, splitTaken, if_neg htrivia, if_pos hzero, ih hsplit]
    rfl

theorem StopsIndices.of_append {α : Type} {view : α → Lexeme} {xs ys : List α}
    (h : StopsIndices view (xs ++ ys)) : StopsIndices view xs := by
  intro x hx
  apply h x
  rw [meaningful_append, List.head?_append, Option.mem_def.1 hx]
  rfl

namespace Lexeme

/-- Two parts that are exchanged on their own still are when the second one ends earlier. -/
theorem Apart.of_append {front back rest : List Lexeme} (h : Apart front (back ++ rest)) :
    Apart front back := h.imp_right StopsIndices.of_append

/-- Either a lexeme is behind the indices that an instruction takes, or it is among them. -/
theorem behindIndices_append_cons (op : Op) (as : List Lexeme) (l : Lexeme) (bs : List Lexeme) :
    behindIndices op (as ++ l :: bs) = behindIndices op as ++ l :: bs ∨
      ∃ gap, bs = gap ++ behindIndices op (as ++ l :: bs) := by
  have hsome {xs gap rest : List Lexeme} (h : splitTaken id op.indexCount xs = some (gap, rest)) :
      behindIndices op xs = rest := by rw [behindIndices, h]; rfl
  have hnone {xs : List Lexeme} (h : splitTaken id op.indexCount xs = none) :
      behindIndices op xs = xs := by rw [behindIndices, h]; rfl
  cases hall : splitTaken id op.indexCount (as ++ l :: bs) with
  | none =>
    left
    rw [hnone hall]
    cases has : splitTaken id op.indexCount as with
    | none => rw [hnone has]
    | some split =>
      obtain ⟨gap, rest⟩ := split
      have hlonger := splitTaken_change has (rest ++ l :: bs)
      rw [← List.append_assoc, ← eq_append_of_splitTaken has, hall] at hlonger
      cases hlonger
  | some split =>
    obtain ⟨gap, rest⟩ := split
    rw [hsome hall]
    rcases List.append_eq_append_iff.1 (eq_append_of_splitTaken hall) with
      ⟨more, rfl, hrest⟩ | ⟨more, rfl, rfl⟩
    · cases more with
      | nil =>
        have has := splitTaken_change hall []
        rw [List.append_nil, List.append_nil] at has
        left
        rw [hsome has]
        exact hrest.symm
      | cons m more =>
        obtain ⟨-, rfl⟩ := List.cons.inj hrest
        exact .inr ⟨more, rfl⟩
    · exact .inl (by rw [hsome (splitTaken_change hall more)])

open Occurrence in
/-- A text may be exchanged in two parts in front of any lexeme, unless an instruction takes that lexeme
for an index, or for trivia in front of one. -/
theorem exchanged_append_cons (as : List Lexeme) (l : Lexeme) (bs : List Lexeme) :
    exchanged rs (as ++ l :: bs) = exchanged rs as ++ exchanged rs (l :: bs) ∨
      l.replacement? rs = none ∧ ∀ start position,
        ∃ o ∈ allIn rs (Token.placeAll start position (as ++ l :: bs)),
          o.span.start ≤ start + byteSize (chars as) ∧
            start + byteSize (chars as) + l.size ≤ o.span.stop := by
  fun_induction exchanged rs as with
  | case1 => exact .inl rfl
  | case2 k as hnone ih =>
    have hcons : exchanged rs (k :: as ++ l :: bs) = k :: exchanged rs (as ++ l :: bs) :=
      exchanged_cons_of_none hnone
    refine ih.imp (fun heq => by rw [hcons, heq]; rfl)
      (And.imp_right fun hcovers start position => ?_)
    rw [List.cons_append, Token.placeAll, allIn_cons_of_none hnone, add_byteSize_chars_cons]
    exact hcovers _ _
  | case3 k as r hsome ih =>
    obtain ⟨gap, happend, hfound⟩ := allIn_placeAll_of_some hsome (as ++ l :: bs)
    rcases behindIndices_append_cons r.op as l bs with hbehind | ⟨more, hmore⟩
    · have hcons : exchanged rs (k :: as ++ l :: bs) =
          call r ++ exchanged rs (behindIndices r.op as ++ l :: bs) := by
        rw [List.cons_append, exchanged_cons_of_some hsome, hbehind]
      refine ih.imp (fun heq => by rw [hcons, heq, List.append_assoc])
        (And.imp_right fun hcovers start position => ?_)
      rw [hbehind, ← List.append_assoc] at happend
      have hsize : start + byteSize (chars (k :: as)) =
          start + byteSize (k.text.toList ++ chars gap) +
            byteSize (chars (behindIndices r.op as)) := by
        rw [chars_cons, congrArg chars (List.append_cancel_right happend), chars_append,
          ← List.append_assoc, byteSize_append _ (chars (behindIndices r.op as)), Nat.add_assoc]
      obtain ⟨o, ho, hcovered⟩ := hcovers (start + byteSize (k.text.toList ++ chars gap))
        (position.after (k.text.toList ++ chars gap))
      rw [← hsize] at hcovered
      rw [List.cons_append, hfound, hbehind]
      exact ⟨o, List.mem_cons_of_mem _ ho, hcovered⟩
    · -- the instruction takes the lexeme
      have hgap : gap = as ++ l :: more := by
        generalize behindIndices r.op (as ++ l :: bs) = rest at happend hmore
        rw [hmore, ← List.cons_append, ← List.append_assoc] at happend
        exact (List.append_cancel_right happend).symm
      refine .inr ⟨?_, fun start position => ?_⟩
      · obtain ⟨gap', happend', hisGap, -⟩ := exists_gap r.op (as ++ l :: bs)
        obtain rfl : gap' = gap := List.append_cancel_right (happend'.symm.trans happend)
        exact hisGap.replacement?_eq_none l (by rw [hgap]; simp)
      · rw [List.cons_append, hfound]
        refine ⟨_, List.mem_cons_self, Nat.le_add_right _ _, ?_⟩
        simp only [hgap, chars_cons, chars_append, byteSize_append, size]
        omega

open Occurrence in
/-- An instruction takes its own mnemonic. -/
theorem exists_mem_allIn {l : Lexeme} {r : Replacement} (h : l.replacement? rs = some r)
    (as bs : List Lexeme) (start : Nat) (position : Position) :
    ∃ o ∈ allIn rs (Token.placeAll start position (as ++ l :: bs)),
      o.span.start = start + byteSize (chars as) ∧
        start + byteSize (chars as) + l.size ≤ o.span.stop := by
  induction as generalizing start position with
  | nil =>
    obtain ⟨gap, -, hfound⟩ := allIn_placeAll_of_some h bs
    rw [List.nil_append, hfound]
    refine ⟨_, List.mem_cons_self, rfl, ?_⟩
    simp only [chars_nil, byteSize_nil, byteSize_append, size]
    omega
  | cons k as ih =>
    obtain ⟨o, ho, hstart, hstop⟩ := ih (start + k.size) (position.after k.text.toList)
    rw [add_byteSize_chars_cons]
    refine ⟨o, ?_, hstart, hstop⟩
    rw [List.cons_append, Token.placeAll]
    cases hk : k.replacement? rs with
    | none => rwa [allIn_cons_of_none hk]
    | some r' =>
      rw [allIn_cons_of_some hk]
      exact List.mem_cons_of_mem _ ho

/-- No parenthesis stands among the indices that an instruction takes. -/
theorem isParen_of_isGap {count : Nat} {gap : List Lexeme} (h : IsGap id count gap) :
    ∀ l ∈ gap, l.isParen = false := by
  intro l hl
  cases hmeaning : l.isTrivia with
  | true => exact isParen_of_trivia hmeaning
  | false =>
    have hzero : l.isZero = true := h.zeros l (List.mem_filter.2 ⟨hl, by simp [hmeaning]⟩)
    rw [isZero, Bool.and_eq_true, beq_iff_eq] at hzero
    rw [isParen, hzero.1]
    rfl

/-- An exchange opens and closes the same groups. -/
theorem nesting_exchanged (rs : List Replacement) (ls : List Lexeme) :
    nesting (exchanged rs ls) = nesting ls := by
  fun_induction exchanged rs ls with
  | case1 => rfl
  | case2 l ls hnone ih => rw [nesting_cons, ih, ← nesting_cons]
  | case3 l ls r hsome ih =>
    obtain ⟨gap, happend, hgap, -⟩ := exists_gap r.op ls
    have hl : nesting [l] = 0 := nesting_eq_zero (by
      simp [isParen, (replacement?_eq_some hsome).1])
    have hcall : nesting (call r) = 0 := nesting_eq_zero (by simp [call, isParen])
    rw [nesting_append, ih, hcall, nesting_cons, hl, congrArg nesting happend, nesting_append,
      nesting_eq_zero (isParen_of_isGap hgap), Int.zero_add, Int.zero_add]

end Lexeme

end BulkMemory
