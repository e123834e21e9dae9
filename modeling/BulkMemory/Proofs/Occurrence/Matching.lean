import BulkMemory.Proofs.Occurrence.Cut
import BulkMemory.Proofs.Occurrence.Refusal
import BulkMemory.Proofs.Token.Depth
import BulkMemory.Proofs.Token.First
import Mathlib.Data.List.Forall2

/-!
# Which indices an instruction takes

What an exchange does, said about the tokens alone: which of them are exchanged (`Lexeme.IsFor`), which
tokens behind a mnemonic go with it (`Token.Consumes`) and where it fails (`Token.Fails`).
`exchangeAll_exact` says that an exchange does this and nothing else.
-/

namespace BulkMemory
set_option autoImplicit false

variable {rs : List Replacement}

/-! ### Texts in which ranges were exchanged -/

/-- A text, from a byte on, in which some ranges were exchanged for other text, and the rest kept. -/
inductive Edit.Spliced : Nat → List Edit → List Char → List Char → Prop where
  | done (cursor : Nat) (cs : List Char) : Spliced cursor [] cs cs
  | edit {cursor : Nat} {e : Edit} {es : List Edit} {kept gone rest after : List Char} :
      e.span.start = cursor + byteSize kept → e.span.stop = e.span.start + byteSize gone →
      Spliced e.span.stop es rest after →
      Spliced cursor (e :: es) (kept ++ gone ++ rest) (kept ++ e.text.toList ++ after)

namespace Edit

variable {cursor : Nat} {es : List Edit} {cs out : List Char}

/-- What the pass over the edits makes of a text. -/
theorem spliced_of_applyFrom? (h : applyFrom? cursor es cs = some out) : Spliced cursor es cs out := by
  induction es generalizing cursor cs out with
  | nil =>
    cases h
    exact .done cursor cs
  | cons e es ih =>
    rw [applyFrom?] at h
    split at h
    · next hspan =>
      obtain ⟨⟨kept, tail⟩, hkept, h⟩ := Option.bind_eq_some_iff.1 h
      obtain ⟨⟨gone, rest⟩, hgone, h⟩ := Option.bind_eq_some_iff.1 h
      obtain ⟨after, hafter, h⟩ := Option.bind_eq_some_iff.1 h
      cases h
      obtain ⟨rfl, hkeptSize⟩ := eq_append_of_splitAt? hkept
      obtain ⟨rfl, hgoneSize⟩ := eq_append_of_splitAt? hgone
      rw [← List.append_assoc kept gone rest]
      refine .edit (by omega) ?_ (ih hafter)
      rw [hgoneSize, Span.size]
      omega
    · cases h

/-- The ranges that were exchanged begin where the text does, or later. -/
theorem Spliced.le_start (h : Spliced cursor es cs out) : ∀ e ∈ es, cursor ≤ e.span.start := by
  induction h with
  | done => simp
  | edit hstart hstop _ ih =>
    refine List.forall_mem_cons.2 ⟨by omega, ?_⟩
    intro e he
    have hle := ih e he
    omega

/-- The ranges that were exchanged stand in order and do not overlap. -/
theorem Spliced.pairwise (h : Spliced cursor es cs out) :
    es.Pairwise fun a b => a.span.stop ≤ b.span.start := by
  induction h with
  | done => exact .nil
  | edit _ _ hrest ih => exact .cons hrest.le_start ih

end Edit

/-! ### Instructions with a replacement -/

namespace Lexeme

/-- The first of the replacements for an instruction. -/
structure IsFor (rs : List Replacement) (l : Lexeme) (r : Replacement) : Prop where
  keyword : l.kind = .keyword
  mnemonic : l.text = r.op.mnemonic
  first : ∃ earlier later, rs = earlier ++ r :: later ∧ ∀ q ∈ earlier, l.text ≠ q.op.mnemonic

/-- Whether a lexeme is an instruction that has a replacement. -/
def isListed (rs : List Replacement) (l : Lexeme) : Bool :=
  l.kind == .keyword && rs.any fun r => l.text == r.op.mnemonic

variable {l : Lexeme} {r : Replacement}

theorem isFor_iff : IsFor rs l r ↔ l.replacement? rs = some r := by
  rw [replacement?]
  constructor
  · rintro ⟨hkeyword, hmnemonic, earlier, later, hcut, hearlier⟩
    rw [if_pos hkeyword, List.find?_eq_some_iff_append]
    exact ⟨by simpa using hmnemonic, earlier, later, hcut, by simpa using hearlier⟩
  · intro h
    split at h
    · next hkeyword =>
      obtain ⟨hmnemonic, earlier, later, hcut, hearlier⟩ := List.find?_eq_some_iff_append.1 h
      exact ⟨hkeyword, by simpa using hmnemonic, earlier, later, hcut, by simpa using hearlier⟩
    · cases h

theorem isListed_eq (rs : List Replacement) (l : Lexeme) :
    l.isListed rs = (l.replacement? rs).isSome := by
  rw [isListed, replacement?]
  split
  · next hkeyword => simp [hkeyword, List.isSome_find?]
  · next hkeyword => simp [hkeyword]

end Lexeme

/-! ### What stands behind a mnemonic -/

namespace Token

/-- The zeros that follow, with trivia anywhere between them. -/
def zeros (behind : List Token) : List Token := (significant behind).takeWhile (·.isZero)

/-- The first token that carries meaning and stands behind these zeros. -/
def behindZeros? (behind : List Token) : Option Token :=
  ((significant behind).dropWhile (·.isZero)).head?

/-- The tokens that go with an instruction: up to the last of as many zeros as it may carry indices, or
none if there are fewer zeros and then no other operand. -/
inductive Consumes (op : Op) (behind : List Token) : List Token → Prop where
  | all {gap rest : List Token} : op.indexCount ≤ (zeros behind).length → behind = gap ++ rest →
      significant gap = (zeros behind).take op.indexCount →
      (∀ t ∈ gap.getLast?, t.isTrivia = false) → Consumes op behind gap
  | nothing : (zeros behind).length < op.indexCount →
      (∀ t ∈ behindZeros? behind, t.kind ≠ .number ∧ t.kind ≠ .id) → Consumes op behind []

/-- An instruction fails for an operand that stands where one of its indices would. -/
structure FailsFor (rs : List Replacement) (t : Token) (behind : List Token) (r : Replacement)
    (operand : Token) : Prop where
  replacement : t.IsFor rs r
  few_zeros : (zeros behind).length < r.op.indexCount
  next : behindZeros? behind = some operand
  operand : operand.kind = .number ∨ operand.kind = .id

/-- An instruction that cannot be exchanged. -/
def Fails (rs : List Replacement) (t : Token) (behind : List Token) : Prop :=
  ∃ r operand, FailsFor rs t behind r operand

variable {op : Op} {r : Replacement} {t operand : Token} {behind : List Token}

theorem refusedIndex?_eq_iff {count : Nat} :
    refusedIndex? toLexeme count (significant behind) = some operand ↔
      (zeros behind).length < count ∧ behindZeros? behind = some operand ∧
        (operand.kind = .number ∨ operand.kind = .id) := by
  rw [refusedIndex?]
  split
  · next henough => exact iff_of_false (by simp) fun h => Nat.not_lt.2 henough h.1
  · next hfew =>
    rw [Option.filter_eq_some_iff]
    constructor
    · rintro ⟨hnext, hkind⟩
      exact ⟨Nat.lt_of_not_le hfew, hnext, by simpa using hkind⟩
    · rintro ⟨-, hnext, hkind⟩
      exact ⟨hnext, by simpa using hkind⟩

theorem failsFor_iff : FailsFor rs t behind r operand ↔ t.replacement? rs = some r ∧
    refusedIndex? toLexeme r.op.indexCount (significant behind) = some operand := by
  rw [refusedIndex?_eq_iff, ← Lexeme.isFor_iff]
  constructor
  · rintro ⟨hfor, hfew, hnext, hkind⟩
    exact ⟨hfor, hfew, hnext, hkind⟩
  · rintro ⟨hfor, hfew, hnext, hkind⟩
    exact ⟨hfor, hfew, hnext, hkind⟩

/-- An instruction that does not fail goes with the tokens up to the last index that it takes. -/
theorem exists_consumes (t : Token)
    (h : refusedIndex? toLexeme op.indexCount (significant behind) = none) :
    ∃ gap, Consumes op behind gap ∧
      ((takenIndices toLexeme op.indexCount (significant behind)).getLast?.map stop).getD t.stop =
        (gap.getLast?.getD t).stop := by
  cases hsplit : splitTaken toLexeme op.indexCount behind with
  | none =>
    have hfew : (zeros behind).length < op.indexCount := length_zeros_lt_of_splitTaken hsplit
    have htaken : takenIndices toLexeme op.indexCount (significant behind) = [] :=
      takenIndices_of_splitTaken hsplit
    refine ⟨[], .nothing hfew ?_, by rw [htaken]; rfl⟩
    intro u hu
    have hnot : ¬ (u.kind = .number ∨ u.kind = .id) := by
      intro hkind
      rw [refusedIndex?_eq_iff.2 ⟨hfew, hu, hkind⟩] at h
      cases h
    exact not_or.1 hnot
  | some split =>
    obtain ⟨gap, rest⟩ := split
    have hgap := isGap_of_splitTaken hsplit
    obtain rfl := eq_append_of_splitTaken hsplit
    have hlength : (significant gap).length = op.indexCount := hgap.length
    have htaken : takenIndices toLexeme op.indexCount (significant (gap ++ rest)) =
      significant gap := hgap.takenIndices_eq rest
    have hlast : (significant gap).getLast? = gap.getLast? := hgap.getLast?_meaningful
    have hall : ∀ u ∈ significant gap, u.isZero = true := hgap.zeros
    have hzeros : zeros (gap ++ rest) = significant gap ++ zeros rest := by
      rw [zeros, significant_append, List.takeWhile_append_of_pos hall, zeros]
    refine ⟨gap, .all ?_ rfl ?_ ?_, ?_⟩
    · rw [hzeros, List.length_append, hlength]
      exact Nat.le_add_right _ _
    · rw [hzeros, ← hlength, List.take_left]
    · intro u hu
      have hzero : u.isZero = true := hgap.last u hu
      rw [Bool.eq_false_iff]
      intro htrivia
      rw [Lexeme.isZero_eq_false_of_isTrivia htrivia] at hzero
      cases hzero
    · rw [htaken, hlast]
      cases gap.getLast? <;> rfl

end Token

/-! ### The instructions of a text -/

namespace Occurrence

open Token

/-- What is exchanged for an instruction among the tokens of a text, and the range that it takes up. -/
def IsAt (rs : List Replacement) (ts : List Token) (t : Token) (o : Occurrence) : Prop :=
  ∃ before behind gap r, ts = before ++ t :: behind ∧ t.IsFor rs r ∧ Consumes r.op behind gap ∧
    o = ⟨r.op, ⟨t.start, (gap.getLast?.getD t).stop⟩, r.target⟩

variable {ts : List Token}

/-- The search finds each instruction that has a replacement, and no other token. -/
theorem forall₂_allIn (h : refused? rs ts = none) (before : List Token) :
    List.Forall₂ (IsAt rs (before ++ ts)) (ts.filter (·.isListed rs)) (allIn rs ts) := by
  induction ts generalizing before with
  | nil => exact .nil
  | cons t ts ih =>
    have hgrow : before ++ t :: ts = (before ++ [t]) ++ ts := by simp
    cases hr : t.replacement? rs with
    | none =>
      have hskip : (t :: ts).filter (·.isListed rs) = ts.filter (·.isListed rs) :=
        List.filter_cons_of_neg (by simp [Lexeme.isListed_eq, hr])
      rw [refused?_cons_of_none hr] at h
      rw [allIn_cons_of_none hr, hskip, hgrow]
      exact ih h (before ++ [t])
    | some r =>
      have hkeep : (t :: ts).filter (·.isListed rs) = t :: ts.filter (·.isListed rs) :=
        List.filter_cons_of_pos (by simp [Lexeme.isListed_eq, hr])
      rw [refused?_cons_of_some hr] at h
      cases hindex : refusedIndex? toLexeme r.op.indexCount (significant ts) with
      | some operand =>
        rw [hindex] at h
        cases h
      | none =>
        rw [hindex] at h
        obtain ⟨gap, hconsumes, hstop⟩ := exists_consumes t hindex
        rw [allIn_cons_of_some hr, hkeep, hstop]
        refine .cons ⟨before, ts, gap, r, rfl, Lexeme.isFor_iff.2 hr, hconsumes, rfl⟩ ?_
        rw [hgrow]
        exact ih h (before ++ [t])

/-- Each of them takes up a range that is not empty. -/
theorem start_lt_stop_of_mem_allIn (hordered : ts.Pairwise fun t u => t.stop ≤ u.start)
    (hsize : ∀ t ∈ ts, t.start < t.stop) : ∀ o ∈ allIn rs ts, o.span.start < o.span.stop := by
  induction ts with
  | nil => simp [allIn]
  | cons t ts ih =>
    obtain ⟨hbehind, hordered⟩ := List.pairwise_cons.1 hordered
    obtain ⟨ht, hsize⟩ := List.forall_mem_cons.1 hsize
    cases hr : t.replacement? rs with
    | none =>
      rw [allIn_cons_of_none hr]
      exact ih hordered hsize
    | some r =>
      rw [allIn_cons_of_some hr]
      refine List.forall_mem_cons.2 ⟨?_, ih hordered hsize⟩
      cases htaken : (takenIndices toLexeme r.op.indexCount (significant ts)).getLast? with
      | none => exact ht
      | some last =>
        have hmem : last ∈ ts :=
          (List.mem_filter.1 (mem_of_mem_takenIndices (List.mem_of_getLast? htaken))).1
        have hlast := hsize last hmem
        have hle := hbehind last hmem
        change t.start < last.stop
        omega

/-- What the search for a failing instruction comes to. -/
inductive Refused (rs : List Replacement) (ts : List Token) : Option PassError → Prop where
  | nothing : NoneWith (fun _ t behind => Fails rs t behind) ts → Refused rs ts none
  | first {before behind : List Token} {t operand : Token} {r : Replacement} :
      FirstWith (fun _ t behind => Fails rs t behind) ts before t behind →
      FailsFor rs t behind r operand →
      Refused rs ts (some (.unsupportedOperand r.op.mnemonic operand.text operand.position))

theorem Refused.cons {t : Token} {e? : Option PassError} (ht : ¬ Fails rs t ts)
    (h : Refused rs ts e?) : Refused rs (t :: ts) e? := by
  cases h with
  | nothing hnone => exact .nothing (hnone.cons ht)
  | first hfirst hfails => exact .first (hfirst.cons ht) hfails

/-- The search stops at the first instruction that fails. -/
theorem refused_refused? (rs : List Replacement) (ts : List Token) :
    Refused rs ts (refused? rs ts) := by
  induction ts with
  | nil => exact .nothing noneWith_nil
  | cons t ts ih =>
    cases hr : t.replacement? rs with
    | none =>
      rw [refused?_cons_of_none hr]
      refine ih.cons ?_
      rintro ⟨r, operand, hfails⟩
      rw [(failsFor_iff.1 hfails).1] at hr
      cases hr
    | some r =>
      rw [refused?_cons_of_some hr]
      cases hindex : refusedIndex? toLexeme r.op.indexCount (significant ts) with
      | none =>
        refine ih.cons ?_
        rintro ⟨q, operand, hfails⟩
        obtain ⟨hq, hoperand⟩ := failsFor_iff.1 hfails
        rw [hr] at hq
        cases hq
        rw [hindex] at hoperand
        cases hoperand
      | some operand =>
        have hfails : FailsFor rs t ts r operand := failsFor_iff.2 ⟨hr, hindex⟩
        exact .first (firstWith_head ⟨r, operand, hfails⟩) hfails

/-- How many of the tokens that are exchanged are instructions of one kind. -/
theorem countP_allIn_eq (rs : List Replacement) (ts : List Token) (op : Op) :
    (allIn rs ts).countP (·.op = op) =
      (ts.filter (·.isListed rs)).countP (·.text == op.mnemonic) := by
  rw [countP_allIn, List.countP_filter]
  refine List.countP_congr ?_
  intro t _
  rw [Lexeme.isListed_eq]
  cases hr : t.replacement? rs with
  | none => simp
  | some r =>
    have htext : t.text = r.op.mnemonic := (Lexeme.isFor_iff.2 hr).mnemonic
    have hinj : r.op.mnemonic = op.mnemonic ↔ r.op = op := by
      cases r.op <;> cases op <;> decide
    simp [htext, hinj]

/-- The instructions that were exchanged in a text, in order, and what has become of it. -/
structure AreExchanged (rs : List Replacement) (source : String) (ts : List Token)
    (os : List Occurrence) (x : Exchanged) : Prop where
  listed : List.Forall₂ (IsAt rs ts) (ts.filter (·.isListed rs)) os
  nonempty : ∀ o ∈ os, o.span.start < o.span.stop
  increasing : os.Pairwise fun a b => a.span.stop ≤ b.span.start
  output : Edit.Spliced 0 (os.map edit) source.toList x.output.toList
  copies : x.copies = (ts.filter (·.isListed rs)).countP (·.text == Op.copy.mnemonic)
  fills : x.fills = (ts.filter (·.isListed rs)).countP (·.text == Op.fill.mnemonic)

end Occurrence

open Occurrence Lexeme Token

/-- What an exchange comes to. -/
inductive IsExchange (rs : List Replacement) (source : String) (ts : List Token) :
    Except PassError Exchanged → Prop where
  | ok {os : List Occurrence} {x : Exchanged} : NoneWith (fun _ t behind => Fails rs t behind) ts →
      AreExchanged rs source ts os x → IsExchange rs source ts (.ok x)
  | error {before behind : List Token} {t operand : Token} {r : Replacement} :
      FirstWith (fun _ t behind => Fails rs t behind) ts before t behind →
      FailsFor rs t behind r operand → IsExchange rs source ts
        (.error (.unsupportedOperand r.op.mnemonic operand.text operand.position))

/-- An exchange fails at the first instruction with an operand that is not zero. Otherwise a call takes
the place of each instruction that has a replacement, with the indices that go with it, and all other
text stays. -/
theorem exchangeAll_exact {source : String} {ts : List Token} (h : tokenize source = .ok ts)
    (rs : List Replacement) : IsExchange rs source ts (exchangeAll source rs) := by
  have hrefused := refused_refused? rs ts
  have hfound := inTokens_eq rs ts
  cases hfault : refused? rs ts with
  | some e =>
    rw [hfault] at hrefused hfound
    have herror : exchangeAll source rs = .error e := by
      rw [exchangeAll, h]
      change (inTokens rs ts >>= _) = _
      rw [hfound]
      rfl
    rw [herror]
    cases hrefused with
    | first hfirst hfails => exact .error hfirst hfails
  | none =>
    rw [hfault] at hrefused hfound
    obtain ⟨ls, rfl, hchars, htiles⟩ := tiles_of_tokenize h
    have hedits := applyFrom?_allIn rs ls 0 .start [] [] (by simp)
    simp only [List.append_nil, Edit.applyFrom?_nil, Option.map_some] at hedits
    rw [hchars] at hedits
    have happly : Edit.applyAll? ((allIn rs (placeAll 0 .start ls)).map edit) source =
        some (String.ofList (chars (exchanged rs ls))) := by
      rw [Edit.applyAll?, hedits]
      rfl
    have hspliced := Edit.spliced_of_applyFrom? hedits
    rw [exchangeAll_of_inTokens h hfound happly]
    cases hrefused with
    | nothing hnone =>
      refine .ok hnone ⟨forall₂_allIn hfault [], ?_, List.pairwise_map.1 hspliced.pairwise, ?_,
        countP_allIn_eq rs _ .copy, countP_allIn_eq rs _ .fill⟩
      · exact start_lt_stop_of_mem_allIn (pairwise_placeAll 0 .start ls)
          (start_lt_stop_of_mem_placeAll htiles.size_pos)
      · rw [String.toList_ofList]
        exact hspliced

/-- Two instructions side by side: both indices of the first are written out, of the second only one. -/
theorem exchangeAll_exact_side_by_side :
    ∃ ts, tokenize "memory.copy 0 0x0 memory.copy 0" = .ok ts ∧
      IsExchange [.named .copy "a", .named .copy "b"] "memory.copy 0 0x0 memory.copy 0" ts
        (exchangeAll "memory.copy 0 0x0 memory.copy 0" [.named .copy "a", .named .copy "b"]) := by
  have hlexemes : Lexer.run "memory.copy 0 0x0 memory.copy 0".toList =
      ([⟨.keyword, "memory.copy"⟩, ⟨.blank, " "⟩, ⟨.number, "0"⟩, ⟨.blank, " "⟩, ⟨.number, "0x0"⟩,
        ⟨.blank, " "⟩, ⟨.keyword, "memory.copy"⟩, ⟨.blank, " "⟩, ⟨.number, "0"⟩], none) := by
    decide +kernel
  have htokens := tokenize.eq_def "memory.copy 0 0x0 memory.copy 0"
  rw [hlexemes] at htokens
  exact ⟨_, htokens, exchangeAll_exact htokens _⟩

end BulkMemory
