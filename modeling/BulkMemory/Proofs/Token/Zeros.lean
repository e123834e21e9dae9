import BulkMemory.Proofs.Module.Numerals
import BulkMemory.Proofs.Token.Reads

/-!
# Numbers that are zero

A number is taken for zero by its characters: it has no digit other than `0`. For the numbers without a
sign that a module may hold, this is the same as having the value zero (`Lexeme.isZero_iff`), however
many digits there are and wherever underscores stand. Alone in a text such a number is one token
(`tokenize_natural`).
-/

namespace BulkMemory
set_option autoImplicit false

open BulkMemory.Module

/-! ### Digits -/

theorem isAlphanum_of_isHexDigit {c : Char} (h : isHexDigit c = true) : c.isAlphanum = true := by
  simp only [isHexDigit, Bool.or_eq_true, Bool.and_eq_true, decide_eq_true_eq] at h
  rcases h with (hdigit | ⟨hlow, hhigh⟩) | ⟨hlow, hhigh⟩
  · exact Bool.or_eq_true_iff.2 (.inr hdigit)
  · have hlower : c.isLower = true :=
      Bool.and_eq_true_iff.2 ⟨decide_eq_true hlow, decide_eq_true (UInt32.le_trans hhigh (by decide))⟩
    exact Bool.or_eq_true_iff.2 (.inl (Bool.or_eq_true_iff.2 (.inr hlower)))
  · have hupper : c.isUpper = true := decide_eq_true ⟨hlow, UInt32.le_trans hhigh (by decide)⟩
    exact Bool.or_eq_true_iff.2 (.inl (Bool.or_eq_true_iff.2 (.inl hupper)))

/-- The letters stand for ten and more. -/
theorem digitValue_eq_zero_iff {c : Char} : digitValue c = 0 ↔ c = '0' := by
  by_cases hdigit : c.isDigit = true
  · have hbounds : 48 ≤ c.toNat ∧ c.toNat ≤ 57 := Char.isDigit_iff_toNat.1 hdigit
    have hzero : '0'.toNat = 48 := rfl
    rw [digitValue, if_pos hdigit, ← Char.toNat_inj]
    omega
  · have hletter : digitValue c ≠ 0 := by
      rw [digitValue, if_neg hdigit]
      split <;> omega
    have hne : c ≠ '0' := by
      rintro rfl
      exact hdigit (by decide)
    exact iff_of_false hletter hne

namespace Module.Radix

variable {r : Radix} {cs : List Char} {d : Char} {n : Nat}

theorem ne_underscore_of_isDigit (h : r.isDigit d = true) : d ≠ '_' := by
  rintro rfl
  rw [r.isDigit_underscore] at h
  cases h

theorem zero_or_underscore_iff (h : r.isDigit d = true) :
    d = '0' ∨ d = '_' ↔ digitValue d = 0 := by
  rw [digitValue_eq_zero_iff, or_iff_left (ne_underscore_of_isDigit h)]

namespace Numeral

/-- The value of a numeral is zero exactly if it has no digit other than `0`. -/
theorem all_zero_iff (h : r.Numeral cs n) : (∀ c ∈ cs, c = '0' ∨ c = '_') ↔ n = 0 := by
  induction h with
  | digit hd => rw [List.forall_mem_singleton, zero_or_underscore_iff hd]
  | @next cs n d _ hd ih =>
    have hbase := r.base_pos
    rw [List.forall_mem_append, List.forall_mem_singleton, ih, zero_or_underscore_iff hd,
      Nat.add_eq_zero_iff, Nat.mul_eq_zero]
    omega
  | @spaced cs n d _ hd ih =>
    have hbase := r.base_pos
    rw [List.forall_mem_append, List.forall_mem_cons, List.forall_mem_singleton, ih,
      zero_or_underscore_iff hd, Nat.add_eq_zero_iff, Nat.mul_eq_zero]
    simp only [or_true, true_and]
    omega

/-- Since a numeral has a digit, it is not enough for it to have no digit other than `0`: it has one. -/
theorem digitsAreZero_iff (h : r.Numeral cs n) : Lexeme.digitsAreZero cs = true ↔ n = 0 := by
  simp only [Lexeme.digitsAreZero, Bool.and_eq_true, List.all_eq_true, Bool.or_eq_true, beq_iff_eq,
    List.contains_iff_mem]
  rw [h.all_zero_iff, and_iff_left_iff_imp]
  intro hn
  obtain ⟨d, ds, rfl, hd⟩ := h.exists_cons
  rcases h.all_zero_iff.2 hn d List.mem_cons_self with rfl | rfl
  · exact List.mem_cons_self
  · exact absurd rfl (ne_underscore_of_isDigit hd)

/-- Only the mark of the radix is taken off a number, although the zero that a numeral begins with might
be taken for a part of it. -/
theorem digits_eq (h : r.Numeral cs n) : Lexeme.digits (r.mark ++ cs) = cs := by
  cases r with
  | hexadecimal => rfl
  | decimal =>
    rw [mark, List.nil_append, Lexeme.digits]
    · exact h.not_marked 'x' (by decide) (by decide)
    · exact h.not_marked 'X' (by decide) (by decide)

end Numeral

end Module.Radix

/-! ### Numbers in a text -/

namespace Lexeme

variable {l : Lexeme} {text : String} {n : Nat}

/-- A number without a sign is recognised as zero by its value. -/
theorem isZero_iff (h : IsNatural text.toList n) :
    isZero ⟨.number, text⟩ = true ↔ n = 0 := by
  obtain ⟨r, ds, htext, hds⟩ := h
  rw [isZero, htext, hds.digits_eq, beq_self_eq_true, Bool.true_and]
  exact hds.digitsAreZero_iff

theorem isDelimiter_of_isNatural {cs : List Char} (h : IsNatural cs n) :
    ∀ c ∈ cs, Lexer.isDelimiter c = false := by
  obtain ⟨r, ds, rfl, hds⟩ := h
  intro c hc
  rcases List.mem_append.1 hc with hmark | hc
  · have hplain : r.mark.all (!Lexer.isDelimiter ·) = true := by cases r <;> decide
    simpa using List.all_eq_true.1 hplain c hmark
  · rcases hds.isDigit_or_underscore c hc with hdigit | rfl
    · exact isDelimiter_of_isAlphanum (isAlphanum_of_isHexDigit (Radix.isHexDigit_of_isDigit hdigit))
    · decide

/-- A number begins with a decimal digit, be it that of its mark. -/
theorem exists_cons_of_isNatural {cs : List Char} (h : IsNatural cs n) :
    ∃ d ds, cs = d :: ds ∧ d.isDigit = true := by
  obtain ⟨r, ds, rfl, hds⟩ := h
  cases r with
  | decimal => exact hds.exists_cons
  | hexadecimal => exact ⟨'0', 'x' :: ds, rfl, by decide⟩

theorem isWord_natural (h : IsNatural text.toList n) : (⟨.number, text⟩ : Lexeme).IsWord := by
  obtain ⟨d, ds, htext, hd⟩ := exists_cons_of_isNatural h
  have hdollar : d ≠ '$' := by
    rintro rfl
    revert hd
    decide
  refine ⟨?_, ?_, isDelimiter_of_isNatural h⟩
  · simp [htext, Lexer.classify, hdollar, hd]
  · simp [htext]

/-- A word alone in a text is its only token. -/
theorem IsWord.tokenize (h : l.IsWord) :
    BulkMemory.tokenize l.text = .ok [{ toLexeme := l, start := 0, position := .start }] := by
  have hnext : IsNext l.kind l.text.toList [] := h.isNext (by simp [Delimited])
  have hrun : Lexer.run l.text.toList = ([l], none) := by
    rw [← decomposes_iff]
    simpa using Decomposes.cons hnext .done
  rw [BulkMemory.tokenize, hrun]
  rfl

end Lexeme

/-- A number without a sign is one token, which is a number, and it is recognised as zero exactly if that
is its value. -/
theorem tokenize_natural {source : String} {n : Nat} (h : IsNatural source.toList n) :
    ∃ t, tokenize source = .ok [t] ∧ t.kind = .number ∧ t.text = source ∧
      (t.isZero = true ↔ n = 0) :=
  ⟨_, (Lexeme.isWord_natural h).tokenize, rfl, rfl, Lexeme.isZero_iff h⟩

/-- A zero behind a mark, with an underscore and more digits than it needs. -/
theorem tokenize_natural_padded :
    IsNatural "0x0_00".toList 0 ∧ ∃ t, tokenize "0x0_00" = .ok [t] ∧ t.kind = .number ∧
      t.text = "0x0_00" ∧ (t.isZero = true ↔ 0 = 0) := by
  have hnatural : IsNatural "0x0_00".toList 0 := natural?_eq_some_iff.1 (by decide)
  exact ⟨hnatural, tokenize_natural hnatural⟩

end BulkMemory
