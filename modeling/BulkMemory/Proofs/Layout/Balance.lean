import BulkMemory.Proofs.Layout.Forest

/-!
# Which modules have a layout

Parentheses are balanced if no closing one comes too early and none is left open
(`Lexeme.AreBalanced`). A module has a layout if and only if its parentheses are balanced and it has a
closing one at all (`Layout.ofTokens_ok_iff`), and otherwise the error says which of the two is missing
(`Layout.ofTokens_spec`).
-/

namespace BulkMemory
set_option autoImplicit false

namespace Lexeme

/-- With `depth` groups open in front of them, some lexemes close all groups, and none that is not
open. -/
structure Closes (depth : Int) (ls : List Lexeme) : Prop where
  total : depth + nesting ls = 0
  early : ∀ front, front <+: ls → 0 ≤ depth + nesting front

/-- No parenthesis is without its partner. -/
def AreBalanced (ls : List Lexeme) : Prop := Closes 0 ls

/-- Some lexeme closes a group. -/
def HasClosing (ls : List Lexeme) : Prop := ∃ l ∈ ls, l.kind = .rightParen

variable {depth : Int} {l : Lexeme} {ls : List Lexeme}

theorem closes_nil_iff : Closes depth [] ↔ depth = 0 := by
  constructor
  · intro h
    simpa using h.total
  · rintro rfl
    exact ⟨rfl, fun front hfront => by rw [List.prefix_nil.1 hfront]; decide⟩

theorem Closes.nonneg (h : Closes depth ls) : 0 ≤ depth := by
  simpa using h.early [] List.nil_prefix

theorem closes_cons_iff : Closes depth (l :: ls) ↔ 0 ≤ depth ∧ Closes (depth + nesting [l]) ls := by
  constructor
  · intro h
    refine ⟨h.nonneg, ?_, fun front hfront => ?_⟩
    · rw [Int.add_assoc, ← nesting_cons]
      exact h.total
    · rw [Int.add_assoc, ← nesting_cons]
      exact h.early (l :: front) (by simpa using hfront)
  · rintro ⟨hdepth, h⟩
    refine ⟨?_, fun front hfront => ?_⟩
    · rw [nesting_cons, ← Int.add_assoc]
      exact h.total
    · rcases List.prefix_cons_iff.1 hfront with rfl | ⟨front', rfl, hfront'⟩
      · simpa using hdepth
      · rw [nesting_cons, ← Int.add_assoc]
        exact h.early front' hfront'

theorem closes_cons_of_not_paren (h : l.isParen = false) : Closes depth (l :: ls) ↔ Closes depth ls := by
  have hl : nesting [l] = 0 := nesting_eq_zero (by simpa using h)
  rw [closes_cons_iff, hl, Int.add_zero]
  exact and_iff_right_of_imp Closes.nonneg

theorem nesting_of_leftParen (h : l.kind = .leftParen) : nesting [l] = 1 := by
  simp [nesting, h]

theorem nesting_of_rightParen (h : l.kind = .rightParen) : nesting [l] = -1 := by
  simp [nesting, h]

/-- Trivia keeps no balance and breaks none. -/
theorem closes_significant (ls : List Lexeme) : Closes depth (significant ls) ↔ Closes depth ls := by
  induction ls generalizing depth with
  | nil => rfl
  | cons l ls ih =>
    cases hl : l.isTrivia with
    | true =>
      have hdrop : significant (l :: ls) = significant ls := by simp [significant, hl]
      rw [hdrop, ih, closes_cons_of_not_paren (isParen_of_trivia hl)]
    | false =>
      have hcons : significant (l :: ls) = l :: significant ls := by simp [significant, hl]
      rw [hcons, closes_cons_iff, closes_cons_iff, ih]

theorem hasClosing_significant (ls : List Lexeme) : HasClosing (significant ls) ↔ HasClosing ls := by
  constructor
  · rintro ⟨l, hl, hkind⟩
    exact ⟨l, (List.mem_filter.1 hl).1, hkind⟩
  · rintro ⟨l, hl, hkind⟩
    exact ⟨l, List.mem_filter.2 ⟨hl, by simp [isTrivia, hkind, Kind.isTrivia]⟩, hkind⟩

end Lexeme

namespace Layout

open Lexeme

variable {opened : List Opening} {ends ends' : Ends} {ts : List Token} {e : PassError}

/-- The matching succeeds if the rest of the text closes the groups that are open, and otherwise it
finds a parenthesis without a partner. -/
theorem closeAll_spec (opened : List Opening) (ends : Ends) (ts : List Token) :
    (∃ ends', closeAll opened ends ts = .ok ends') ∧ Closes opened.length (ts.map Token.toLexeme) ∨
      (∃ p, closeAll opened ends ts = .error (.unbalanced p)) ∧
        ¬ Closes opened.length (ts.map Token.toLexeme) := by
  -- the depth is the number of open groups, and every step of the matching changes both alike
  fun_induction closeAll opened ends ts with
  | case1 opened ends outermost hlast =>
    refine .inr ⟨⟨_, rfl⟩, ?_⟩
    rw [List.map_nil, closes_nil_iff]
    have hpos := List.length_pos_of_mem (List.mem_of_getLast? hlast)
    omega
  | case2 opened ends hnone =>
    obtain rfl := List.getLast?_eq_none_iff.1 hnone
    exact .inl ⟨⟨_, rfl⟩, closes_nil_iff.2 rfl⟩
  | case3 opened ends t ts hkind ih =>
    rw [List.map_cons, closes_cons_iff, nesting_of_leftParen hkind,
      and_iff_right (Int.natCast_nonneg _)]
    exact ih
  | case4 ends t ts hkind =>
    refine .inr ⟨⟨_, rfl⟩, fun h => ?_⟩
    rw [List.map_cons, closes_cons_iff, nesting_of_rightParen hkind] at h
    exact absurd h.2.nonneg (by decide)
  | case5 ends t ts hkind o module? ih =>
    rw [List.map_cons, closes_cons_iff, nesting_of_rightParen hkind,
      and_iff_right (Int.natCast_nonneg _)]
    exact ih
  | case6 ends t ts hkind inner o os ih =>
    have hdepth : ((inner :: o :: os).length : Int) + -1 = (o :: os).length := by
      simp only [List.length_cons]
      omega
    rw [List.map_cons, closes_cons_iff, nesting_of_rightParen hkind, hdepth,
      and_iff_right (Int.natCast_nonneg _)]
    exact ih
  | case7 opened ends t ts hleft hright ih =>
    have hparen : t.isParen = false := by simpa [isParen] using ⟨hleft, hright⟩
    rwa [List.map_cons, closes_cons_of_not_paren hparen]

/-- Once a group is open, or has been closed, the end of the last group is known in the end. -/
theorem last?_of_closeAll (h : closeAll opened ends ts = .ok ends')
    (hgroup : opened ≠ [] ∨ ends.last? ≠ none ∨ ∃ t ∈ ts, t.kind = .rightParen) :
    ends'.last? ≠ none := by
  fun_induction closeAll opened ends ts with
  | case1 | case4 => cases h
  | case2 opened ends hnone =>
    cases h
    obtain rfl := List.getLast?_eq_none_iff.1 hnone
    simpa using hgroup
  | case3 opened ends t ts hkind ih => exact ih h (.inl (by simp))
  | case5 ends t ts hkind o module? ih => exact ih h (.inr (.inl (by simp)))
  | case6 ends t ts hkind inner o os ih => exact ih h (.inl (by simp))
  | case7 opened ends t ts hleft hright ih =>
    refine ih h (hgroup.imp_right (Or.imp_right ?_))
    rintro ⟨u, hu, hkind⟩
    rcases List.mem_cons.1 hu with rfl | hu
    · exact absurd hkind hright
    · exact ⟨u, hu, hkind⟩

theorem any_rightParen_iff (ts : List Token) :
    ts.any (·.kind == .rightParen) = true ↔ HasClosing (ts.map Token.toLexeme) := by
  simp only [HasClosing, List.any_eq_true, beq_iff_eq]
  constructor
  · rintro ⟨t, ht, hkind⟩
    exact ⟨t.toLexeme, List.mem_map_of_mem ht, hkind⟩
  · rintro ⟨l, hl, hkind⟩
    obtain ⟨t, ht, rfl⟩ := List.mem_map.1 hl
    exact ⟨t, ht, hkind⟩

/-- A module has a layout if its parentheses are balanced and one of them closes a group. Otherwise the
error says what is missing. -/
theorem ofTokens_spec (ts : List Token) :
    (∃ layout, ofTokens ts = .ok layout) ∧ HasClosing (Token.meaning ts) ∧
        AreBalanced (Token.meaning ts) ∨
      ofTokens ts = .error .noClosingDelimiter ∧ ¬ HasClosing (Token.meaning ts) ∨
      (∃ p, ofTokens ts = .error (.unbalanced p)) ∧ HasClosing (Token.meaning ts) ∧
        ¬ AreBalanced (Token.meaning ts) := by
  cases hany : (Token.significant ts).any (·.kind == .rightParen) with
  | true =>
    have hclosing : HasClosing (Token.meaning ts) := (any_rightParen_iff _).1 hany
    rw [ofTokens, hany]
    rcases closeAll_spec [] {} (Token.significant ts) with
      ⟨⟨ends, hends⟩, hbalanced⟩ | ⟨⟨p, hends⟩, hopen⟩
    · refine .inl ⟨?_, hclosing, hbalanced⟩
      have hlast : ends.last? ≠ none :=
        last?_of_closeAll hends (.inr (.inr (by simpa using hany)))
      rw [hends]
      obtain ⟨module?, last?⟩ := ends
      cases module? with
      | some offset => exact ⟨_, rfl⟩
      | none =>
        cases last? with
        | some offset => exact ⟨_, rfl⟩
        | none => exact absurd rfl hlast
    · refine .inr (.inr ⟨⟨p, ?_⟩, hclosing, hopen⟩)
      rw [hends]
      rfl
  | false =>
    refine .inr (.inl ⟨?_, fun hclosing => ?_⟩)
    · rw [ofTokens, hany]
      rfl
    · rw [(any_rightParen_iff _).2 hclosing] at hany
      cases hany

theorem ofTokens_ok_iff :
    (∃ layout, ofTokens ts = .ok layout) ↔
      HasClosing (ts.map Token.toLexeme) ∧ AreBalanced (ts.map Token.toLexeme) := by
  rw [← hasClosing_significant, AreBalanced, ← closes_significant, ← Token.meaning_eq]
  rcases ofTokens_spec ts with ⟨hlayout, h⟩ | ⟨herror, hclosing⟩ | ⟨⟨p, herror⟩, -, hopen⟩
  · exact iff_of_true hlayout h
  · exact iff_of_false (by simp [herror]) fun h => hclosing h.1
  · exact iff_of_false (by simp [herror]) fun h => hopen h.2

/-- Without a layout the parentheses are to blame. -/
theorem isStructural_of_ofTokens (h : ofTokens ts = .error e) : e.isStructural = true := by
  rcases ofTokens_spec ts with ⟨⟨layout, hlayout⟩, -⟩ | ⟨herror, -⟩ | ⟨⟨p, herror⟩, -⟩
  · rw [hlayout] at h
    cases h
  all_goals
    rw [herror] at h
    cases h
    rfl

end Layout

end BulkMemory
