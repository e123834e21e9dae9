import BulkMemory.Proofs.Replacement.Names

/-!
# Which instructions are refused

An instruction is refused for an operand that stands where an index would, and is none
(`Lexeme.Refuses`). The search for occurrences stops at the first such instruction of a text, and
nowhere else (`Occurrence.finds_refused?`).
-/

namespace BulkMemory
set_option autoImplicit false

theorem refusedIndex?_eq_some_iff {α : Type} {view : α → Lexeme} {count : Nat} {xs : List α} {x : α} :
    refusedIndex? view count xs = some x ↔
      ∃ zeros rest, xs = zeros ++ x :: rest ∧ zeros.length < count ∧
        (∀ z ∈ zeros, (view z).isZero = true) ∧ (view x).isZero = false ∧
          ((view x).kind = .number ∨ (view x).kind = .id) := by
  constructor
  · intro h
    rw [refusedIndex?] at h
    split at h
    · cases h
    · next hfew =>
      obtain ⟨hhead, hkind⟩ := Option.filter_eq_some_iff.1 h
      obtain ⟨rest, hrest⟩ := List.head?_eq_some_iff.1 hhead
      have hsplit := List.takeWhile_append_dropWhile (p := fun x => (view x).isZero) (l := xs)
      have hstop := List.head?_dropWhile_not (fun x => (view x).isZero) xs
      rw [hhead] at hstop
      refine ⟨_, rest, by rw [← hrest, hsplit], Nat.lt_of_not_le hfew,
        List.all_eq_true.1 List.all_takeWhile, hstop, by simpa using hkind⟩
  · rintro ⟨zeros, rest, rfl, hfew, hzeros, hx, hkind⟩
    have htake : (zeros ++ x :: rest).takeWhile (fun x => (view x).isZero) = zeros := by
      rw [List.takeWhile_append_of_pos hzeros]
      simp [hx]
    have hdrop : (zeros ++ x :: rest).dropWhile (fun x => (view x).isZero) = x :: rest := by
      rw [List.dropWhile_append_of_pos hzeros]
      simp [hx]
    rw [refusedIndex?, htake, hdrop, if_neg (Nat.not_le.2 hfew)]
    simp [Option.filter, hkind]

namespace Lexeme

/-- An instruction is refused for an operand: fewer zeros follow it than it may carry indices, and then
the operand, which is a number other than zero or an identifier. Trivia may stand between them. -/
def Refuses (op : Op) (behind : List Lexeme) (operand : Lexeme) : Prop :=
  ∃ zeros rest, significant behind = zeros ++ operand :: rest ∧ zeros.length < op.indexCount ∧
    (∀ z ∈ zeros, z.isZero = true) ∧ operand.isZero = false ∧
      (operand.kind = .number ∨ operand.kind = .id)

/-- Behind the lexemes in `before` stands an instruction that is refused. -/
def RefusedAt (ls before : List Lexeme) (op : Op) (operand : Lexeme) : Prop :=
  ∃ l behind, ls = before ++ l :: behind ∧ l.isKeyword op.mnemonic = true ∧ Refuses op behind operand

/-- The first instruction of a text that is refused, and the operand for which it is. -/
def FirstRefused (ls : List Lexeme) (op : Op) (operand : Lexeme) : Prop :=
  ∃ before, RefusedAt ls before op operand ∧
    ∀ before' op' operand', RefusedAt ls before' op' operand' → before.length ≤ before'.length

variable {l operand : Lexeme} {ls before : List Lexeme} {op : Op}

theorem refuses_iff :
    Refuses op ls operand ↔ refusedIndex? id op.indexCount (significant ls) = some operand :=
  refusedIndex?_eq_some_iff.symm

theorem refusedAt_nil_iff :
    RefusedAt (l :: ls) [] op operand ↔ l.op? = some op ∧ Refuses op ls operand := by
  rw [op?_eq_some_iff]
  constructor
  · rintro ⟨k, behind, heq, hk⟩
    obtain ⟨rfl, rfl⟩ := List.cons.inj heq
    exact hk
  · intro h
    exact ⟨l, ls, rfl, h⟩

theorem refusedAt_cons_iff {k : Lexeme} :
    RefusedAt (l :: ls) (k :: before) op operand ↔ k = l ∧ RefusedAt ls before op operand := by
  constructor
  · rintro ⟨m, behind, heq, hm⟩
    obtain ⟨rfl, rfl⟩ := List.cons.inj heq
    exact ⟨rfl, m, behind, rfl, hm⟩
  · rintro ⟨rfl, m, behind, rfl, hm⟩
    exact ⟨m, behind, rfl, hm⟩

/-- Behind a lexeme that is not refused, the first refused instruction is that of the rest. -/
theorem FirstRefused.cons (hl : ∀ op' operand', l.op? = some op' → ¬ Refuses op' ls operand')
    (h : FirstRefused ls op operand) : FirstRefused (l :: ls) op operand := by
  obtain ⟨before, hbefore, hleast⟩ := h
  refine ⟨l :: before, refusedAt_cons_iff.2 ⟨rfl, hbefore⟩, fun before' op' operand' h => ?_⟩
  cases before' with
  | nil =>
    obtain ⟨hop, hrefuses⟩ := refusedAt_nil_iff.1 h
    exact absurd hrefuses (hl op' operand' hop)
  | cons k before' => exact Nat.succ_le_succ (hleast before' op' operand' (refusedAt_cons_iff.1 h).2)

/-- What a search for refused instructions finds in some lexemes. -/
inductive Finds (ls : List Lexeme) : Option PassError → Prop where
  | nothing : (∀ before op operand, ¬ RefusedAt ls before op operand) → Finds ls none
  | first {op : Op} {operand : Lexeme} (p : Position) : FirstRefused ls op operand →
      Finds ls (some (.unsupportedOperand op.mnemonic operand.text p))

theorem Finds.cons {e? : Option PassError}
    (hl : ∀ op operand, l.op? = some op → ¬ Refuses op ls operand) (h : Finds ls e?) :
    Finds (l :: ls) e? := by
  cases h with
  | nothing hnone =>
    refine .nothing fun before op operand h => ?_
    cases before with
    | nil => exact hl op operand (refusedAt_nil_iff.1 h).1 (refusedAt_nil_iff.1 h).2
    | cons k before => exact hnone before op operand (refusedAt_cons_iff.1 h).2
  | first p hfirst => exact .first p (hfirst.cons hl)

end Lexeme

namespace Occurrence

open Lexeme

variable {rs : List Replacement}

/-- The search for occurrences stops at the first instruction that is refused, if every instruction has
a replacement. -/
theorem finds_refused? {ts : List Token}
    (hops : ∀ t ∈ ts, (t.replacement? rs).map Replacement.op = t.op?) :
    Finds (ts.map Token.toLexeme) (refused? rs ts) := by
  induction ts with
  | nil =>
    refine .nothing fun before op operand => ?_
    rintro ⟨l, behind, heq, -⟩
    simp at heq
  | cons t ts ih =>
    obtain ⟨hop, hlater⟩ := List.forall_mem_cons.1 hops
    cases hr : t.replacement? rs with
    | none =>
      rw [hr, Option.map_none] at hop
      rw [refused?_cons_of_none hr]
      refine (ih hlater).cons fun op operand hsome => ?_
      rw [← hop] at hsome
      cases hsome
    | some r =>
      rw [hr, Option.map_some] at hop
      have hindex := map_refusedIndex? r.op.indexCount ts
      rw [refused?_cons_of_some hr]
      cases hu : refusedIndex? Token.toLexeme r.op.indexCount (Token.significant ts) with
      | none =>
        rw [hu, Option.map_none] at hindex
        refine (ih hlater).cons fun op operand hsome hrefuses => ?_
        obtain rfl : r.op = op := Option.some.inj (hop.trans hsome)
        rw [refuses_iff, ← hindex] at hrefuses
        cases hrefuses
      | some u =>
        rw [hu, Option.map_some, eq_comm, ← refuses_iff] at hindex
        -- nothing stands in front of the instruction at hand
        exact .first u.position
          ⟨[], refusedAt_nil_iff.2 ⟨hop.symm, hindex⟩, fun _ _ _ _ => Nat.zero_le _⟩

end Occurrence

end BulkMemory
