import BulkMemory.Proofs.Occurrence.Refusal

/-!
# Where a refused operand stands

The search for a refused instruction answers with the place of the operand. Among the lexemes of a
text it finds the same operand wherever the text begins, and the place that it names moves along with
the text (`Occurrence.refused?_placeAll`). Of the replacements only the kinds matter
(`Occurrence.refused?_of_ops`). `Lexeme.Blames` says what stands in front of the operand.
-/

namespace BulkMemory
set_option autoImplicit false

namespace Lexeme

/-- An error blames an instruction for an operand: the operand is a number other than zero or an
identifier, and the nearest lexeme in front of it that carries meaning and is no zero is the
instruction. -/
structure Blames (mnemonic operand : String) (before : List Lexeme) (l : Lexeme) : Prop where
  text : l.text = operand
  kind : l.kind = .number ∨ l.kind = .id
  not_zero : l.isZero = false
  behind : ∃ k, (significant before).reverse.find? (!·.isZero) = some k ∧ k.isKeyword mnemonic = true

/-- What stands further in front does not matter. -/
theorem Blames.append {mnemonic operand : String} {before : List Lexeme} {l : Lexeme}
    (h : Blames mnemonic operand before l) (front : List Lexeme) :
    Blames mnemonic operand (front ++ before) l := by
  obtain ⟨k, hfind, hk⟩ := h.behind
  refine ⟨h.text, h.kind, h.not_zero, k, ?_, hk⟩
  rw [significant_append, List.reverse_append, List.find?_append, hfind]
  rfl

/-- Behind some lexemes, too few of which are zeros and the others trivia, stands an operand that an
instruction in front of them is refused for. -/
structure LeadsTo (count : Nat) (gap : List Lexeme) (operand : Lexeme) : Prop where
  zeros : ∀ z ∈ significant gap, z.isZero = true
  few : (significant gap).length < count
  not_zero : operand.isZero = false
  kind : operand.kind = .number ∨ operand.kind = .id

variable {count : Nat} {gap : List Lexeme} {operand : Lexeme}

theorem exists_leadsTo {ls : List Lexeme}
    (h : refusedIndex? id count (significant ls) = some operand) :
    ∃ gap rest, ls = gap ++ operand :: rest ∧ LeadsTo count gap operand := by
  obtain ⟨zeros, rest, hsplit, hfew, hzeros, hoperand, hkind⟩ := refusedIndex?_eq_some_iff.1 h
  obtain ⟨gap, behind, rfl, hgap, hbehind⟩ := List.filter_eq_append_iff.1 hsplit
  obtain ⟨trivia, after, rfl, htrivia, -⟩ := List.filter_eq_cons_iff.1 hbehind
  have hnone : significant trivia = [] :=
    List.filter_eq_nil_iff.2 fun t ht => by simpa using htrivia t ht
  have hmeaning : significant (gap ++ trivia) = zeros := by
    rw [significant_append, hnone, List.append_nil]
    exact hgap
  exact ⟨gap ++ trivia, after, by simp, hmeaning ▸ hzeros, hmeaning ▸ hfew, hoperand, hkind⟩

/-- The instruction is the nearest lexeme in front of the operand that is no zero. -/
theorem LeadsTo.blames (h : LeadsTo count gap operand) {l : Lexeme} {op : Op}
    (hop : l.op? = some op) : Blames op.mnemonic operand.text (l :: gap) operand := by
  have hkeyword : l.kind = .keyword := (op?_eq_some hop).1
  have hmeaning : significant (l :: gap) = l :: significant gap := by
    simp [significant, isTrivia, hkeyword, Kind.isTrivia]
  have hzeros : (significant gap).reverse.find? (!·.isZero) = none :=
    List.find?_eq_none.2 fun z hz => by simpa using h.zeros z (List.mem_reverse.1 hz)
  refine ⟨rfl, h.kind, h.not_zero, l, ?_, op?_eq_some_iff.1 hop⟩
  rw [hmeaning, List.reverse_cons, List.find?_append, hzeros]
  simp [isZero, hkeyword]

/-- The operand is found at its own place. -/
theorem LeadsTo.refusedIndex?_placeAll (h : LeadsTo count gap operand) (rest : List Lexeme)
    (start : Nat) (position : Position) :
    refusedIndex? Token.toLexeme count
        (Token.significant (Token.placeAll start position (gap ++ operand :: rest))) =
      some ⟨operand, start + byteSize (chars gap), position.after (chars gap)⟩ := by
  have hmap := Token.map_significant_placeAll start position gap
  have hmeaning : operand.isTrivia = false := by
    rcases h.kind with hkind | hkind <;> simp [isTrivia, hkind, Kind.isTrivia]
  rw [Token.placeAll_append, Token.placeAll, Token.significant_append,
    Token.significant_cons_of_not_trivia hmeaning]
  refine refusedIndex?_eq_some_iff.2 ⟨_, _, rfl, ?_, fun z hz => ?_, h.not_zero, h.kind⟩
  · rw [← List.length_map (f := Token.toLexeme), hmap]
    exact h.few
  · exact h.zeros z.toLexeme (hmap ▸ List.mem_map_of_mem hz)

end Lexeme

namespace Occurrence

open Lexeme

/-- What is refused among the lexemes of a text: nothing, or an instruction for an operand whose place
moves along with the text. -/
inductive Blame (rs : List Replacement) (ls : List Lexeme) : Prop where
  | nothing : (∀ start position, refused? rs (Token.placeAll start position ls) = none) → Blame rs ls
  | operand {op : Op} {before after : List Lexeme} {l : Lexeme} :
      ls = before ++ l :: after → Blames op.mnemonic l.text before l →
      (∀ start position, refused? rs (Token.placeAll start position ls) =
        some (.unsupportedOperand op.mnemonic l.text (position.after (chars before)))) → Blame rs ls

theorem blame (rs : List Replacement) (ls : List Lexeme) : Blame rs ls := by
  induction ls with
  | nil => exact .nothing fun _ _ => rfl
  | cons k ls ih =>
    -- an instruction that is not refused leaves the matter to what follows it
    have hlater (hk : ∀ start position, refused? rs (Token.placeAll start position (k :: ls)) =
        refused? rs (Token.placeAll (start + k.size) (position.after k.text.toList) ls)) :
        Blame rs (k :: ls) := by
      cases ih with
      | nothing hnone => exact .nothing fun start position => (hk start position).trans (hnone _ _)
      | @operand op before after l hsplit hblames hrefused =>
        have hcons : k :: ls = (k :: before) ++ l :: after := by rw [hsplit]; rfl
        refine .operand hcons (hblames.append [k]) fun start position => ?_
        rw [hk, hrefused, chars_cons, Position.after_append]
    cases hr : k.replacement? rs with
    | none => exact hlater fun start position => refused?_cons_of_none hr
    | some r =>
      have hop : k.op? = some r.op := by
        obtain ⟨hkind, -, htext⟩ := replacement?_eq_some hr
        exact op?_eq_some_iff.2 (by simp [isKeyword, hkind, htext])
      cases hindex : refusedIndex? id r.op.indexCount (significant ls) with
      | none =>
        refine hlater fun start position => ?_
        have hmap := map_refusedIndex? r.op.indexCount
          (Token.placeAll (start + k.size) (position.after k.text.toList) ls)
        rw [Token.map_toLexeme_placeAll, hindex, Option.map_eq_none_iff] at hmap
        rw [Token.placeAll, refused?_cons_of_some hr, hmap]
      | some u =>
        obtain ⟨gap, rest, rfl, hgap⟩ := exists_leadsTo hindex
        have hcons : k :: (gap ++ u :: rest) = (k :: gap) ++ u :: rest := rfl
        refine .operand hcons (hgap.blames hop) fun start position => ?_
        rw [Token.placeAll, refused?_cons_of_some hr, hgap.refusedIndex?_placeAll]
        simp [Position.after_append]

variable {rs rs' : List Replacement}

theorem replacement?_map_op (rs : List Replacement) (l : Lexeme) :
    (l.replacement? rs).map Replacement.op =
      l.op?.bind fun op => (rs.map Replacement.op).find? (· == op) := by
  rw [replacement?_eq]
  cases l.op? with
  | none => rfl
  | some op =>
    simp only [Option.bind_some, List.find?_map]
    rfl

/-- Only the kinds of the replacements decide what is refused. -/
theorem refused?_of_ops (h : rs.map Replacement.op = rs'.map Replacement.op) (ts : List Token) :
    refused? rs ts = refused? rs' ts := by
  induction ts with
  | nil => rfl
  | cons t ts ih =>
    have hop := replacement?_map_op rs t.toLexeme
    rw [h, ← replacement?_map_op] at hop
    cases hr : t.replacement? rs with
    | none =>
      rw [hr, Option.map_none, eq_comm, Option.map_eq_none_iff] at hop
      rw [refused?_cons_of_none hr, refused?_cons_of_none hop, ih]
    | some r =>
      rw [hr, Option.map_some, eq_comm, Option.map_eq_some_iff] at hop
      obtain ⟨r', hr', hsame⟩ := hop
      rw [refused?_cons_of_some hr, refused?_cons_of_some hr', hsame, ih]

end Occurrence

end BulkMemory
