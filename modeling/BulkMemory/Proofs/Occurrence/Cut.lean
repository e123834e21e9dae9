import BulkMemory.Proofs.Occurrence.Exchange

/-!
# Exchanging a text in parts

A text may be cut into parts that are exchanged on their own, wherever no instruction in front of
the cut looks for indices behind it. `Lexeme.Apart` is such a cut: a closing parenthesis ends the
first part, or something that can be no index begins the second one. What is refused depends on the
lexemes alone, wherever the part stands (`Occurrence.refused?_congr`).
-/

namespace BulkMemory
set_option autoImplicit false

/-- An error without the place that it names. -/
def PassError.unplaced : PassError → PassError
  | .lex e => .lex ⟨e.fault, .start⟩
  | .unbalanced _ => .unbalanced .start
  | .unsupportedOperand mnemonic operand _ => .unsupportedOperand mnemonic operand .start
  | e => e

variable {rs : List Replacement}

namespace Occurrence

theorem allIn_append {us : List Token} (h : StopsIndices Token.toLexeme us) (ts : List Token) :
    allIn rs (ts ++ us) = allIn rs ts ++ allIn rs us := by
  induction ts with
  | nil => rfl
  | cons t ts ih =>
    rw [List.cons_append]
    cases hr : t.replacement? rs with
    | none => rw [allIn_cons_of_none hr, allIn_cons_of_none hr, ih]
    | some r =>
      have htaken : takenIndices Token.toLexeme r.op.indexCount (Token.significant (ts ++ us)) =
        takenIndices Token.toLexeme r.op.indexCount (Token.significant ts) :=
          takenIndices_append h _ ts
      rw [allIn_cons_of_some hr, allIn_cons_of_some hr, ih, htaken, List.cons_append]

theorem refused?_append {us : List Token} (h : StopsIndices Token.toLexeme us) (ts : List Token) :
    refused? rs (ts ++ us) = (refused? rs ts).or (refused? rs us) := by
  induction ts with
  | nil => rfl
  | cons t ts ih =>
    rw [List.cons_append]
    cases hr : t.replacement? rs with
    | none => rw [refused?_cons_of_none hr, refused?_cons_of_none hr, ih]
    | some r =>
      have hrefused : refusedIndex? Token.toLexeme r.op.indexCount (Token.significant (ts ++ us)) =
        refusedIndex? Token.toLexeme r.op.indexCount (Token.significant ts) :=
          refusedIndex?_append h _ ts
      rw [refused?_cons_of_some hr, refused?_cons_of_some hr, ih, hrefused]
      cases refusedIndex? Token.toLexeme r.op.indexCount (Token.significant ts) <;> rfl

end Occurrence

namespace Lexeme

theorem behindIndices_append {ms : List Lexeme} (h : StopsIndices id ms) (op : Op)
    (ls : List Lexeme) : behindIndices op (ls ++ ms) = behindIndices op ls ++ ms := by
  rw [behindIndices, behindIndices, splitTaken_append h]
  cases splitTaken id op.indexCount ls <;> rfl

theorem exchanged_append_of_stops {ms : List Lexeme} (h : StopsIndices id ms) (ls : List Lexeme) :
    exchanged rs (ls ++ ms) = exchanged rs ls ++ exchanged rs ms := by
  fun_induction exchanged rs ls with
  | case1 => rfl
  | case2 l ls hnone ih =>
    rw [List.cons_append, exchanged_cons_of_none hnone, ih]
    rfl
  | case3 l ls r hsome ih =>
    rw [List.cons_append, exchanged_cons_of_some hsome, behindIndices_append h, ih, List.append_assoc]

theorem exchanged_append_of_none {ls : List Lexeme} (h : ∀ l ∈ ls, l.replacement? rs = none)
    (ms : List Lexeme) : exchanged rs (ls ++ ms) = ls ++ exchanged rs ms := by
  induction ls with
  | nil => rfl
  | cons l ls ih =>
    rw [List.cons_append, exchanged_cons_of_none (h l List.mem_cons_self),
      ih fun k hk => h k (List.mem_cons_of_mem l hk), List.cons_append]

/-- No instruction in the first part looks for indices in the second one. -/
def Apart (front back : List Lexeme) : Prop :=
  (∃ l ∈ front.getLast?, l.kind = .rightParen) ∨ StopsIndices id back

/-- Between two parts there is room for a cut in front of which no index is looked for, with nothing
or a closing parenthesis behind it. -/
theorem Apart.exists_cut {front back : List Lexeme} (h : Apart front back) :
    ∃ init last, front = init ++ last ∧ (∀ l ∈ last, l.kind ≠ .keyword) ∧
      StopsIndices id last ∧ StopsIndices id (last ++ back) := by
  rcases h with ⟨p, hp, hkind⟩ | hback
  · obtain ⟨init, rfl⟩ := List.getLast?_eq_some_iff.1 hp
    have hmeaning : p.isTrivia = false := by simp [isTrivia, hkind, Kind.isTrivia]
    refine ⟨init, [p], rfl, by simp [hkind], ?_, ?_⟩ <;>
      simp [StopsIndices, meaningful, hmeaning, hkind]
  · exact ⟨front, [], by simp, by simp, by simp [StopsIndices, meaningful], by simpa using hback⟩

/-- The two parts of a text are exchanged on their own. -/
theorem Apart.exchanged_append {front back : List Lexeme} (h : Apart front back) :
    exchanged rs (front ++ back) = exchanged rs front ++ exchanged rs back := by
  obtain ⟨init, last, rfl, hlast, hstops, hcut⟩ := h.exists_cut
  have hnone : ∀ l ∈ last, l.replacement? rs = none := fun l hl =>
    replacement?_of_not_keyword (hlast l hl)
  have hself := exchanged_append_of_none hnone []
  rw [List.append_assoc, exchanged_append_of_stops hcut, exchanged_append_of_stops hstops,
    exchanged_append_of_none hnone, List.append_assoc]
  simpa [exchanged] using congrArg (· ++ exchanged rs back) hself.symm

end Lexeme

/-! ### The instructions of the two parts -/

theorem StopsIndices.placeAll {ls : List Lexeme} (h : StopsIndices id ls) (start : Nat)
    (position : Position) : StopsIndices Token.toLexeme (Token.placeAll start position ls) := by
  intro t ht
  have hmap := meaningful_map id Token.toLexeme (Token.placeAll start position ls)
  rw [Token.map_toLexeme_placeAll] at hmap
  exact h t.toLexeme (by rw [hmap, List.head?_map]; exact Option.mem_map_of_mem _ ht)

namespace Occurrence

open Lexeme

theorem replacement?_placeAll {ls : List Lexeme} (h : ∀ l ∈ ls, l.replacement? rs = none)
    (start : Nat) (position : Position) :
    ∀ t ∈ Token.placeAll start position ls, t.replacement? rs = none := by
  intro t ht
  apply h t.toLexeme
  rw [← Token.map_toLexeme_placeAll start position ls]
  exact List.mem_map_of_mem ht

variable {front back : List Lexeme} (start : Nat) (position : Position)

theorem allIn_placeAll_append (rs : List Replacement) (h : Apart front back) :
    allIn rs (Token.placeAll start position (front ++ back)) =
      allIn rs (Token.placeAll start position front) ++
        allIn rs (Token.placeAll (start + byteSize (chars front))
          (position.after (chars front)) back) := by
  obtain ⟨init, last, rfl, hlast, hstops, hcut⟩ := h.exists_cut
  have hnone : ∀ l ∈ last, l.replacement? rs = none := fun l hl =>
    replacement?_of_not_keyword (hlast l hl)
  have hplaced := replacement?_placeAll hnone (start + byteSize (chars init))
    (position.after (chars init))
  have hself := allIn_append_of_none hplaced []
  rw [List.append_nil] at hself
  rw [List.append_assoc, Token.placeAll_append, allIn_append (hcut.placeAll _ _),
    Token.placeAll_append, allIn_append_of_none hplaced, Token.placeAll_append start,
    allIn_append (hstops.placeAll _ _), hself, chars_append, byteSize_append, ← Nat.add_assoc,
    Position.after_append]
  simp [allIn]

theorem refused?_placeAll_append (rs : List Replacement) (h : Apart front back) :
    refused? rs (Token.placeAll start position (front ++ back)) =
      (refused? rs (Token.placeAll start position front)).or
        (refused? rs (Token.placeAll (start + byteSize (chars front))
          (position.after (chars front)) back)) := by
  obtain ⟨init, last, rfl, hlast, hstops, hcut⟩ := h.exists_cut
  have hnone : ∀ l ∈ last, l.replacement? rs = none := fun l hl =>
    replacement?_of_not_keyword (hlast l hl)
  have hplaced := replacement?_placeAll hnone (start + byteSize (chars init))
    (position.after (chars init))
  have hself := refused?_append_of_none hplaced []
  rw [List.append_nil] at hself
  rw [List.append_assoc, Token.placeAll_append, refused?_append (hcut.placeAll _ _),
    Token.placeAll_append, refused?_append_of_none hplaced, Token.placeAll_append start,
    refused?_append (hstops.placeAll _ _), hself, chars_append, byteSize_append, ← Nat.add_assoc,
    Position.after_append]
  simp [refused?]

/-- The operand that is refused among some tokens is the one that is refused among their lexemes. -/
theorem map_refusedIndex? (count : Nat) (ts : List Token) :
    (refusedIndex? Token.toLexeme count (Token.significant ts)).map Token.toLexeme =
      refusedIndex? id count (significant (ts.map Token.toLexeme)) := by
  rw [← Token.meaning_eq, Token.meaning, refusedIndex?_map]
  rfl

/-- What is refused depends on the lexemes alone, but for the place that the error names. -/
theorem refused?_congr (rs : List Replacement) {ts us : List Token}
    (h : ts.map Token.toLexeme = us.map Token.toLexeme) :
    (refused? rs ts).map PassError.unplaced = (refused? rs us).map PassError.unplaced := by
  induction ts generalizing us with
  | nil =>
    obtain rfl := List.map_eq_nil_iff.1 h.symm
    rfl
  | cons t ts ih =>
    obtain ⟨u, us, rfl, hu, hus⟩ := List.map_eq_cons_iff.1 h.symm
    have hlater := ih hus.symm
    cases hr : t.replacement? rs with
    | none =>
      rw [refused?_cons_of_none hr, refused?_cons_of_none (hu ▸ hr), hlater]
    | some r =>
      have hindex := (map_refusedIndex? r.op.indexCount ts).trans
        ((congrArg (fun ls => refusedIndex? id r.op.indexCount (significant ls)) hus.symm).trans
          (map_refusedIndex? r.op.indexCount us).symm)
      rw [refused?_cons_of_some hr, refused?_cons_of_some (hu ▸ hr)]
      cases hv : refusedIndex? Token.toLexeme r.op.indexCount (Token.significant ts) with
      | none =>
        rw [hv, Option.map_none, eq_comm, Option.map_eq_none_iff] at hindex
        rw [hindex]
        exact hlater
      | some v =>
        rw [hv, Option.map_some, eq_comm, Option.map_eq_some_iff] at hindex
        obtain ⟨w, hw, htext⟩ := hindex
        rw [hw]
        simp only [Option.map_some, PassError.unplaced, htext]

theorem countP_allIn (rs : List Replacement) (ts : List Token) (op : Op) :
    (allIn rs ts).countP (·.op = op) =
      ts.countP fun t => (t.replacement? rs).map Replacement.op = some op := by
  induction ts with
  | nil => rfl
  | cons t ts ih =>
    cases hr : t.replacement? rs with
    | none => rw [allIn_cons_of_none hr, ih, List.countP_cons_of_neg (by simp [hr])]
    | some r =>
      rw [allIn_cons_of_some hr, List.countP_cons, List.countP_cons, ih]
      simp [hr]

/-- How many instructions are found depends on the lexemes alone. -/
theorem countP_allIn_placeAll (rs : List Replacement) (ls : List Lexeme) (op : Op) :
    (allIn rs (Token.placeAll start position ls)).countP (·.op = op) =
      ls.countP fun l => (l.replacement? rs).map Replacement.op = some op := by
  have hmap := congrArg (List.countP fun l => (l.replacement? rs).map Replacement.op = some op)
    (Token.map_toLexeme_placeAll start position ls)
  rw [countP_allIn, ← hmap, List.countP_map]
  rfl

end Occurrence

end BulkMemory
