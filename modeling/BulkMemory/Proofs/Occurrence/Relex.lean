import BulkMemory.Proofs.Occurrence.Cut
import BulkMemory.Proofs.Token.Reads

/-!
# The lexemes after an exchange

The new text falls into the lexemes of `Lexeme.exchanged` again, because a call begins like a
mnemonic and ends in front of what its last index ended in front of (`Tiles.exchanged`). None of
these lexemes is an instruction (`op?_exchanged`), and those with a meaning are the old ones with
the calls in place (`significant_exchanged`).
-/

namespace BulkMemory.Lexeme
set_option autoImplicit false

variable {rs : List Replacement} {l : Lexeme} {ls : List Lexeme} {r : Replacement}

theorem replacement?_eq_some (h : l.replacement? rs = some r) :
    l.kind = .keyword ∧ r ∈ rs ∧ l.text = r.op.mnemonic := by
  rw [replacement?] at h
  split at h
  · next hkind => exact ⟨hkind, List.mem_of_find?_eq_some h, by simpa using List.find?_some h⟩
  · cases h

theorem op?_call (r : Replacement) : ∀ l ∈ call r, l.op? = none := by
  have hcall : Op.ofMnemonic? "call" = none := by decide
  simp [call, op?, hcall]

/-- An exchange leaves no instruction, if each has a replacement. -/
theorem op?_exchanged (h : ∀ l ∈ ls, (l.replacement? rs).map Replacement.op = l.op?) :
    ∀ l ∈ exchanged rs ls, l.op? = none := by
  fun_induction exchanged rs ls with
  | case1 => simp
  | case2 l ls hnone ih =>
    intro k hk
    rcases List.mem_cons.1 hk with rfl | hk
    · rw [← h k List.mem_cons_self, hnone]
      rfl
    · exact ih (fun k hk => h k (List.mem_cons_of_mem l hk)) k hk
  | case3 l ls r hsome ih =>
    intro k hk
    rcases List.mem_append.1 hk with hk | hk
    · exact op?_call r k hk
    · obtain ⟨gap, happend, -⟩ := exists_gap r.op ls
      refine ih (fun k hk => h k (List.mem_cons_of_mem l ?_)) k hk
      rw [happend]
      exact List.mem_append_right gap hk

/-! ### What carries meaning -/

/-- Calls in place of instructions, among lexemes that carry meaning: the indices that an
instruction takes go with it. -/
def calls (rs : List Replacement) : List Lexeme → List Lexeme
  | [] => []
  | l :: ls =>
    match l.replacement? rs with
    | none => l :: calls rs ls
    | some r =>
      ⟨.keyword, "call"⟩ :: named r.name ::
        calls rs (ls.drop (takenIndices id r.op.indexCount ls).length)
termination_by ls => ls.length
decreasing_by
  · simp
  · simp only [List.length_drop, List.length_cons]
    omega

theorem calls_cons_of_none (h : l.replacement? rs = none) (ls : List Lexeme) :
    calls rs (l :: ls) = l :: calls rs ls := by
  rw [calls, h]

theorem calls_cons_of_some (h : l.replacement? rs = some r) (ls : List Lexeme) :
    calls rs (l :: ls) =
      ⟨.keyword, "call"⟩ :: named r.name ::
        calls rs (ls.drop (takenIndices id r.op.indexCount ls).length) := by
  rw [calls, h]

theorem significant_exchanged (rs : List Replacement) (ls : List Lexeme) :
    significant (exchanged rs ls) = calls rs (significant ls) := by
  fun_induction exchanged rs ls with
  | case1 => simp [calls]
  | case2 l ls hnone ih =>
    cases hl : l.isTrivia with
    | true => simpa [significant, hl] using ih
    | false =>
      have hcons : significant (l :: ls) = l :: significant ls := by simp [significant, hl]
      rw [hcons, calls_cons_of_none hnone, ← ih]
      simp [significant, hl]
  | case3 l ls r hsome ih =>
    obtain ⟨gap, happend, -, htaken, -⟩ := exists_gap r.op ls
    have hl : l.isTrivia = false := by
      rw [isTrivia, (replacement?_eq_some hsome).1]
      rfl
    have hcons : significant (l :: ls) = l :: significant ls := by simp [significant, hl]
    have hdrop : (significant ls).drop (significant gap).length =
        significant (behindIndices r.op ls) := by
      rw [congrArg significant happend, significant_append, List.drop_left]
    rw [hcons, calls_cons_of_some hsome, htaken, hdrop, significant_append, ih]
    rfl

/-! ### The new text -/

variable {rest : List Char}

/-- In front, an exchange changes at most the first letter of a mnemonic to that of a call. -/
theorem Tiles.head_exchanged (h : Tiles ls rest) (rs : List Replacement) :
    (chars ls ++ rest).head? = (chars (exchanged rs ls) ++ rest).head? ∨
      ∃ cs cs', chars ls ++ rest = 'm' :: cs ∧ chars (exchanged rs ls) ++ rest = 'c' :: cs' := by
  cases ls with
  | nil => simp [exchanged]
  | cons k ks =>
    cases hr : k.replacement? rs with
    | none =>
      obtain ⟨c, cs, hcs⟩ := List.exists_cons_of_ne_nil h.1.text_ne_nil
      simp [exchanged_cons_of_none hr, hcs]
    | some r =>
      have htext : k.text.toList.head? = some 'm' := by
        rw [(replacement?_eq_some hr).2.2]
        cases r.op <;> decide
      obtain ⟨cs, hcs⟩ : ∃ cs, k.text.toList = 'm' :: cs := List.head?_eq_some_iff.1 htext
      refine .inr ⟨cs ++ (chars ks ++ rest),
        "all ".toList ++ r.target.toList ++ chars (exchanged rs (behindIndices r.op ks)) ++ rest,
        by simp [hcs], ?_⟩
      simp [exchanged_cons_of_some hr, call]

theorem Tiles.stands_exchanged (h : Tiles ls rest) (hl : Stands l (chars ls ++ rest)) :
    Stands l (chars (exchanged rs ls) ++ rest) := by
  rcases h.head_exchanged rs with hhead | ⟨cs, cs', hold, hnew⟩
  · exact hl.congr hhead
  · rw [hold] at hl
    rw [hnew]
    exact hl.change_head (by decide) (by decide) cs'

/-- What an instruction ends in front of begins with a delimiter, and still does so later. -/
theorem Tiles.delimited_exchanged (h : Tiles ls rest) (hdelimited : Delimited (chars ls ++ rest)) :
    Delimited (chars (exchanged rs ls) ++ rest) := by
  rcases h.head_exchanged rs with hhead | ⟨cs, cs', hold, hnew⟩
  · rwa [Delimited, ← hhead]
  · exact absurd (hdelimited 'm' (by rw [hold]; rfl)) (by decide)

/-- The last lexeme of an instruction goes up to a delimiter, be it the mnemonic or an index. -/
theorem delimited_behindIndices (op : Op) (hkind : l.kind = .keyword) (h : Tiles (l :: ls) rest) :
    Delimited (chars (behindIndices op ls) ++ rest) := by
  obtain ⟨gap, happend, hgap, -, -⟩ := exists_gap op ls
  have hls := h.2
  rcases List.eq_nil_or_concat gap with rfl | ⟨init, z, rfl⟩
  · have hl := h.1.delimited (.inl hkind)
    rwa [happend] at hl
  · have hz : z.kind = .number := by
      have hzero := hgap.last z (by simp)
      simp only [isZero, id_eq, Bool.and_eq_true, beq_iff_eq] at hzero
      exact hzero.1
    rw [happend, List.concat_eq_append, List.append_assoc] at hls
    exact (Tiles.append_iff.1 hls).2.1.delimited (.inr hz)

/-- The new text falls into the new lexemes. -/
theorem Tiles.exchanged (hrs : ∀ r ∈ rs, isIdentifier r.name = true) (h : Tiles ls rest) :
    Tiles (exchanged rs ls) rest := by
  fun_induction Lexeme.exchanged rs ls with
  | case1 => trivial
  | case2 l ls hnone ih => exact ⟨h.2.stands_exchanged h.1, ih h.2⟩
  | case3 l ls r hsome ih =>
    obtain ⟨hkind, hmem, -⟩ := replacement?_eq_some hsome
    obtain ⟨gap, happend, -, -, -⟩ := exists_gap r.op ls
    have hbehind : Tiles (behindIndices r.op ls) rest := by
      have hls := h.2
      rw [happend] at hls
      exact (Tiles.append_iff.1 hls).2
    have hname : Stands (named r.name) (chars (Lexeme.exchanged rs (behindIndices r.op ls)) ++ rest) :=
      (isWord_named (hrs r hmem)).stands
        (hbehind.delimited_exchanged (delimited_behindIndices r.op hkind h))
    have hcall : IsWord ⟨.keyword, "call"⟩ := isWord_keyword (by decide) (by decide)
    refine Tiles.append_iff.2 ⟨⟨hcall.stands ?_, ?_, hname, trivial⟩, ih hbehind⟩
    · intro c hc
      obtain rfl : ' ' = c := by simpa using hc
      decide
    · exact .blank rfl (by decide) (List.all_eq_true.1 (by decide))

end BulkMemory.Lexeme
