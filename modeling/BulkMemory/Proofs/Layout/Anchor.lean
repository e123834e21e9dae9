import BulkMemory.Proofs.Occurrence.Cut

/-!
# The anchor stands at a closing parenthesis

New fields go in front of a closing parenthesis of the module or right behind one
(`Layout.exists_rightParen`). So the anchor lies between two lexemes, and no instruction in front of
it looks for indices behind it (`Layout.exists_apart`).
-/

namespace BulkMemory
set_option autoImplicit false

namespace Layout

/-- The ends recorded so far are those of closing parentheses among some tokens. -/
structure Ends.AreAmong (ends : Ends) (ts : List Token) : Prop where
  module : ∀ offset ∈ ends.module?, ∃ t ∈ ts, t.kind = .rightParen ∧ t.start = offset
  last : ∀ offset ∈ ends.last?, ∃ t ∈ ts, t.kind = .rightParen ∧ t.stop = offset

theorem Ends.areAmong_empty (ts : List Token) : ({} : Ends).AreAmong ts :=
  ⟨by simp, by simp⟩

/-- Every end that the matching of parentheses records belongs to one of the tokens. -/
theorem closeAll_areAmong {opened : List Opening} {ends ends' : Ends} {ts all : List Token}
    (h : closeAll opened ends ts = .ok ends') (hsub : ts ⊆ all) (hends : ends.AreAmong all) :
    ends'.AreAmong all := by
  fun_induction closeAll opened ends ts with
  | case1 | case4 => cases h
  | case2 =>
    cases h
    exact hends
  | case3 opened ends t ts hkind ih => exact ih h (List.subset_of_cons_subset hsub) hends
  | case5 ends t ts hkind o module? ih =>
    have hmem : t ∈ all := hsub List.mem_cons_self
    refine ih h (List.subset_of_cons_subset hsub) ⟨fun offset hoffset => ?_, fun offset hoffset => ?_⟩
    · cases hmodule : ends.module? with
      | some first => exact hends.module offset (by simpa [module?, hmodule] using hoffset)
      | none =>
        obtain ⟨-, rfl⟩ : o.isModule = true ∧ t.start = offset := by
          simpa [module?, hmodule] using hoffset
        exact ⟨t, hmem, hkind, rfl⟩
    · obtain rfl : t.stop = offset := by simpa using hoffset
      exact ⟨t, hmem, hkind, rfl⟩
  | case6 ends t ts hkind head o os ih => exact ih h (List.subset_of_cons_subset hsub) hends
  | case7 opened ends t ts hleft hright ih =>
    exact ih h (List.subset_of_cons_subset hsub) hends

/-- The anchor is where a closing parenthesis begins, or where one ends. -/
theorem exists_rightParen {ts : List Token} {layout : Layout} (h : ofTokens ts = .ok layout) :
    ∃ t ∈ ts, t.kind = .rightParen ∧
      (layout.anchor = t.start ∨ layout.anchor = t.stop) := by
  have hsub {t : Token} (ht : t ∈ Token.significant ts) : t ∈ ts := (List.mem_filter.1 ht).1
  rw [ofTokens] at h
  split at h
  · cases h
  · cases hends : closeAll [] {} (Token.significant ts) with
    | error e => rw [hends] at h; cases h
    | ok ends =>
      have hamong := closeAll_areAmong hends (List.Subset.refl _) (Ends.areAmong_empty _)
      rw [hends] at h
      obtain ⟨module?, last?⟩ := ends
      match module?, last? with
      | some offset, _ =>
        cases h
        obtain ⟨t, ht, hkind, hstart⟩ := hamong.module offset rfl
        exact ⟨t, hsub ht, hkind, .inl hstart.symm⟩
      | none, some offset =>
        cases h
        obtain ⟨t, ht, hkind, hstop⟩ := hamong.last offset rfl
        exact ⟨t, hsub ht, hkind, .inr hstop.symm⟩
      | none, none => cases h

open Lexeme

/-- The anchor cuts the lexemes of the module in two parts that may be exchanged on their own. -/
theorem exists_apart {ls : List Lexeme} {layout : Layout}
    (h : ofTokens (Token.placeAll 0 .start ls) = .ok layout) :
    ∃ front back, ls = front ++ back ∧ layout.anchor = byteSize (chars front) ∧
      Apart front back := by
  obtain ⟨t, ht, hkind, hanchor⟩ := exists_rightParen h
  obtain ⟨before, after, hsplit⟩ := List.append_of_mem ht
  obtain ⟨front, back, rfl, -, hback⟩ := Token.exists_of_placeAll_eq_append hsplit
  cases back with
  | nil => cases hback
  | cons l back =>
    rw [Token.placeAll, List.cons.injEq, Nat.zero_add] at hback
    obtain ⟨rfl, -⟩ := hback
    have hkind : l.kind = .rightParen := hkind
    rcases hanchor with hanchor | hanchor
    · refine ⟨front, l :: back, rfl, hanchor, .inr fun k hk => ?_⟩
      have hmeaning : l.isTrivia = false := by rw [isTrivia, hkind]; rfl
      obtain rfl : l = k := by simpa [meaningful, hmeaning] using hk
      simp [hkind]
    · refine ⟨front ++ [l], back, by simp, ?_, .inl ⟨l, by simp, hkind⟩⟩
      rw [hanchor, chars_append, byteSize_append]
      simp [Token.stop, size]

end Layout

end BulkMemory
