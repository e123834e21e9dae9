import BulkMemory.Proofs.Occurrence.Kept
import BulkMemory.Proofs.Pass.Forest

/-!
# Places in the output

A token comes to stand behind what becomes of the text in front of it, and behind the functions if it
stands behind the anchor (`Pass.newPlace`). What becomes of the token itself is found there, whether
that is the token or a call (`Pass.Replaced.exists_place`).
-/

namespace BulkMemory.Pass
set_option autoImplicit false

open Lexeme

/-- Where a run puts what becomes of a token. -/
def newPlace (config : Config) (layout : Layout) (rs : List Replacement) (before : List Token)
    (t : Token) : Nat :=
  byteSize (chars (exchanged rs (before.map Token.toLexeme))) +
    if layout.anchor ≤ t.start then
      byteSize (insertedText rs config.indent layout.wrapped).toList
    else 0

namespace Replaced

variable {config : Config} {source : String} {o : Outcome} {ts : List Token} {layout : Layout}
  {rs : List Replacement} {front block back : List Lexeme}

/-- The functions leave no group open. -/
theorem nesting_block (hconfig : config.check = .ok ())
    (p : Replaced config source o ts layout rs front block back) : nesting block = 0 := by
  rw [← nesting_significant, p.significant_block, ← lexemesAll_functionForms]
  exact Form.nesting_lexemesAll _ (p.areProper_functionForms hconfig)

/-- What becomes of a token stands at its new place, with as many groups open in front of it, unless
an instruction takes the token for an index. -/
theorem exists_place (hconfig : config.check = .ok ())
    (p : Replaced config source o ts layout rs front block back) {before after : List Token}
    {t : Token} (hsplit : ts = before ++ t :: after)
    (hfree : t.replacement? rs = none → ∀ i ∈ Occurrence.allIn rs ts, ¬ i.Takes t) :
    ∃ as rest bs,
      exchanged rs front ++ (block ++ exchanged rs back) =
        as ++ (exchanged rs (t.toLexeme :: rest) ++ bs) ∧
      byteSize (chars as) = newPlace config layout rs before t ∧
      nesting as = nesting (before.map Token.toLexeme) := by
  obtain ⟨hall, hstart⟩ := Token.of_placeAll_eq_append (p.tokens.symm.trans hsplit)
  have hsize : 0 < t.size := p.tiles_source.size_pos t.toLexeme (by rw [hall]; simp)
  have hpart (as bs : List Lexeme) (start : Nat) (position : Position)
      (hplace : t.start = start + byteSize (chars as))
      (hsub : ∀ i ∈ Occurrence.allIn rs (Token.placeAll start position (as ++ t.toLexeme :: bs)),
        i ∈ Occurrence.allIn rs ts) :
      exchanged rs (as ++ t.toLexeme :: bs) = exchanged rs as ++ exchanged rs (t.toLexeme :: bs) := by
    rcases exchanged_append_cons as t.toLexeme bs with heq | ⟨hnone, hcovers⟩
    · exact heq
    · obtain ⟨i, hi, hcovered⟩ := hcovers start position
      rw [← hplace] at hcovered
      exact absurd hcovered (hfree hnone i (hsub i hi))
  have hinstructions := p.allIn_eq
  rw [newPlace]
  generalize before.map Token.toLexeme = as, after.map Token.toLexeme = bs at hall hstart
  -- the token stands in front of the anchor or behind it
  have hcases : (∃ more, front = as ++ t.toLexeme :: more) ∨
      ∃ more, as = front ++ more ∧ back = more ++ t.toLexeme :: bs := by
    rcases List.append_eq_append_iff.1 hall with hlater | ⟨more, rfl, hmore⟩
    · exact .inr hlater
    · cases more with
      | nil => exact .inr ⟨[], by simp, hmore.symm⟩
      | cons m more =>
        obtain ⟨rfl, -⟩ := List.cons.inj hmore
        exact .inl ⟨more, rfl⟩
  rcases hcases with ⟨more, rfl⟩ | ⟨more, rfl, rfl⟩
  · have hanchor : ¬ layout.anchor ≤ t.start := by
      rw [p.anchor, hstart, chars_append, byteSize_append, chars_cons, byteSize_append]
      change ¬ _ + (t.size + _) ≤ _
      omega
    have hexchanged := hpart as more 0 .start (by rw [hstart, Nat.zero_add]) fun i hi => by
      rw [hinstructions]
      exact List.mem_append_left _ hi
    refine ⟨exchanged rs as, more, block ++ exchanged rs back, ?_, ?_, nesting_exchanged rs as⟩
    · rw [hexchanged, List.append_assoc]
    · rw [if_neg hanchor, Nat.add_zero]
  · rw [chars_append, byteSize_append, ← p.anchor] at hstart
    have hexchanged := hpart more bs layout.anchor (Position.start.after (chars front)) hstart
      fun i hi => by
        rw [hinstructions]
        exact List.mem_append_right _ hi
    have hparts : exchanged rs (front ++ more) = exchanged rs front ++ exchanged rs more :=
      p.apart.of_append.exchanged_append
    refine ⟨exchanged rs front ++ (block ++ exchanged rs more), bs, [], ?_, ?_, ?_⟩
    · rw [hexchanged]
      simp
    · rw [if_pos (by omega), hparts, ← p.chars_block]
      simp only [chars_append, byteSize_append]
      omega
    · rw [nesting_append, nesting_append, p.nesting_block hconfig, nesting_exchanged,
        nesting_exchanged, nesting_append, Int.zero_add]

end Replaced

end BulkMemory.Pass
