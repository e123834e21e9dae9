import BulkMemory.Proofs.Occurrence.Operand

/-!
# Exchanges in turn

A call is no instruction and no index, so an exchange leaves what a later one looks for: the text in
front of the first call is the old one, and from there on neither text goes on with an index
(`Lexeme.exists_front`). To exchange with two lists of replacements is therefore to exchange with one
and then with the other (`exchangeAll_append`), and replacements for different instructions may
take their turns in either order.
-/

namespace BulkMemory
set_option autoImplicit false

namespace Lexeme

variable {as bs rs : List Replacement} {l : Lexeme} {ls ms : List Lexeme}

/-! ### What an exchange leaves to a later one -/

theorem replacement?_append (as bs : List Replacement) (l : Lexeme) :
    l.replacement? (as ++ bs) = (l.replacement? as).or (l.replacement? bs) := by
  unfold replacement?
  split
  · exact List.find?_append
  · rfl

theorem replacement?_call (rs : List Replacement) (r : Replacement) :
    ∀ l ∈ call r, l.replacement? rs = none := by
  intro l hl
  rw [replacement?_eq, op?_call r l hl]
  rfl

/-- No instruction stands among the indices that another one takes. -/
theorem exists_taken (rs : List Replacement) (op : Op) (ls : List Lexeme) :
    ∃ gap, ls = gap ++ behindIndices op ls ∧ ∀ l ∈ gap, l.replacement? rs = none := by
  obtain ⟨gap, happend, hgap, -⟩ := exists_gap op ls
  exact ⟨gap, happend, hgap.replacement?_eq_none⟩

/-- No index is looked for from a keyword on. -/
theorem stopsIndices_of_keyword (h : l.kind = .keyword) (ls : List Lexeme) :
    StopsIndices id (l :: ls) := by
  intro k hk
  have hmeaning : l.isTrivia = false := by simp [isTrivia, h, Kind.isTrivia]
  obtain rfl : l = k := by simpa [meaningful, hmeaning] using hk
  simp [h]

/-- In front of the first instruction that is exchanged nothing changes, and there the search for an
index ends, before the exchange and after it. -/
theorem exists_front (rs : List Replacement) (ls : List Lexeme) :
    ∃ before old, ls = before ++ old ∧ (∀ l ∈ before, l.replacement? rs = none) ∧
      StopsIndices id old ∧ StopsIndices id (exchanged rs old) := by
  induction ls with
  | nil => exact ⟨[], [], rfl, by simp, by simp [StopsIndices, meaningful],
      by simp [exchanged, StopsIndices, meaningful]⟩
  | cons l ls ih =>
    cases hr : l.replacement? rs with
    | none =>
      obtain ⟨before, old, rfl, hbefore, hstops⟩ := ih
      exact ⟨l :: before, old, rfl, List.forall_mem_cons.2 ⟨hr, hbefore⟩, hstops⟩
    | some r =>
      refine ⟨[], l :: ls, rfl, by simp, stopsIndices_of_keyword (replacement?_eq_some hr).1 ls, ?_⟩
      rw [exchanged_cons_of_some hr]
      apply stopsIndices_of_keyword
      rfl

theorem refusedIndex?_exchanged (rs : List Replacement) (count : Nat) (ls : List Lexeme) :
    refusedIndex? id count (significant (exchanged rs ls)) =
      refusedIndex? id count (significant ls) := by
  obtain ⟨before, old, rfl, hbefore, hold, hnew⟩ := exists_front rs ls
  rw [exchanged_append_of_none hbefore]
  exact (refusedIndex?_append hnew count before).trans (refusedIndex?_append hold count before).symm

theorem behindIndices_exchanged (rs : List Replacement) (op : Op) (ls : List Lexeme) :
    behindIndices op (exchanged rs ls) = exchanged rs (behindIndices op ls) := by
  obtain ⟨before, old, rfl, hbefore, hold, hnew⟩ := exists_front rs ls
  obtain ⟨gap, happend, -⟩ := exists_gap op before
  have hbehind : ∀ l ∈ behindIndices op before, l.replacement? rs = none := by
    intro l hl
    apply hbefore
    rw [happend]
    exact List.mem_append_right gap hl
  rw [exchanged_append_of_none hbefore, behindIndices_append hnew, behindIndices_append hold,
    exchanged_append_of_none hbehind]

/-- What two exchanges make of a text. -/
theorem exchanged_exchanged (as bs : List Replacement) (ls : List Lexeme) :
    exchanged bs (exchanged as ls) = exchanged (as ++ bs) ls := by
  fun_induction exchanged (as ++ bs) ls with
  | case1 => simp [exchanged]
  | case2 l ls hnone ih =>
    rw [replacement?_append, Option.or_eq_none_iff] at hnone
    rw [exchanged_cons_of_none hnone.1, exchanged_cons_of_none hnone.2, ih]
  | case3 l ls r hsome ih =>
    rw [replacement?_append] at hsome
    cases hfirst : l.replacement? as with
    | some q =>
      obtain rfl : q = r := by simpa [hfirst] using hsome
      rw [exchanged_cons_of_some hfirst, exchanged_append_of_none (replacement?_call bs q), ih]
    | none =>
      have hsecond : l.replacement? bs = some r := by simpa [hfirst] using hsome
      rw [exchanged_cons_of_none hfirst, exchanged_cons_of_some hsecond, behindIndices_exchanged, ih]

/-! ### Refusals -/

/-- None of the instructions that have a replacement is refused. -/
def Accepts (rs : List Replacement) : List Lexeme → Prop
  | [] => True
  | l :: ls =>
    (∀ r ∈ l.replacement? rs, refusedIndex? id r.op.indexCount (significant ls) = none) ∧
      Accepts rs ls

theorem accepts_cons_of_none (h : l.replacement? rs = none) :
    Accepts rs (l :: ls) ↔ Accepts rs ls := by
  simp [Accepts, h]

theorem accepts_cons_of_some {r : Replacement} (h : l.replacement? rs = some r) :
    Accepts rs (l :: ls) ↔
      refusedIndex? id r.op.indexCount (significant ls) = none ∧ Accepts rs ls := by
  simp [Accepts, h]

theorem accepts_append_of_none (h : ∀ l ∈ ls, l.replacement? rs = none) :
    Accepts rs (ls ++ ms) ↔ Accepts rs ms := by
  induction ls with
  | nil => rfl
  | cons l ls ih =>
    obtain ⟨hl, hls⟩ := List.forall_mem_cons.1 h
    rw [List.cons_append, accepts_cons_of_none hl, ih hls]

theorem accepts_behindIndices (rs : List Replacement) (op : Op) (ls : List Lexeme) :
    Accepts rs (behindIndices op ls) ↔ Accepts rs ls := by
  obtain ⟨gap, happend, hgap⟩ := exists_taken rs op ls
  have hall : Accepts rs (gap ++ behindIndices op ls) ↔ Accepts rs (behindIndices op ls) :=
    accepts_append_of_none hgap
  rw [← happend] at hall
  exact hall.symm

/-- Two exchanges refuse together what one with all the replacements refuses. -/
theorem accepts_append_iff (as bs : List Replacement) (ls : List Lexeme) :
    Accepts (as ++ bs) ls ↔ Accepts as ls ∧ Accepts bs (exchanged as ls) := by
  fun_induction exchanged as ls with
  | case1 => simp [Accepts]
  | case2 l ls hnone ih =>
    have hall : l.replacement? (as ++ bs) = l.replacement? bs := by
      rw [replacement?_append, hnone, Option.none_or]
    rw [accepts_cons_of_none hnone]
    cases hr : l.replacement? bs with
    | none => rw [accepts_cons_of_none (hall.trans hr), accepts_cons_of_none hr, ih]
    | some r =>
      rw [accepts_cons_of_some (hall.trans hr), accepts_cons_of_some hr, refusedIndex?_exchanged, ih]
      exact and_left_comm
  | case3 l ls r hsome ih =>
    have hall : l.replacement? (as ++ bs) = some r := by
      rw [replacement?_append, hsome, Option.some_or]
    rw [accepts_cons_of_some hall, accepts_cons_of_some hsome,
      accepts_append_of_none (replacement?_call bs r), ← accepts_behindIndices (as ++ bs) r.op,
      ← accepts_behindIndices as r.op, ih, and_assoc]

/-! ### How many instructions are exchanged -/

/-- Whether a lexeme is exchanged as an instruction of some kind. -/
def isExchangedAs (rs : List Replacement) (op : Op) (l : Lexeme) : Bool :=
  (l.replacement? rs).map Replacement.op = some op

theorem isExchangedAs_of_none (h : l.replacement? rs = none) (op : Op) :
    l.isExchangedAs rs op = false := by
  simp [isExchangedAs, h]

theorem countP_append_of_none (h : ∀ l ∈ ls, l.replacement? rs = none) (op : Op) :
    (ls ++ ms).countP (isExchangedAs rs op) = ms.countP (isExchangedAs rs op) := by
  have hzero : ls.countP (isExchangedAs rs op) = 0 := by
    apply List.countP_eq_zero.2
    intro l hl
    simp [isExchangedAs_of_none (h l hl)]
  rw [List.countP_append, hzero, Nat.zero_add]

theorem countP_behindIndices (rs : List Replacement) (op kind : Op) (ls : List Lexeme) :
    (behindIndices op ls).countP (isExchangedAs rs kind) = ls.countP (isExchangedAs rs kind) := by
  obtain ⟨gap, happend, hgap⟩ := exists_taken rs op ls
  calc (behindIndices op ls).countP (isExchangedAs rs kind)
      = (gap ++ behindIndices op ls).countP (isExchangedAs rs kind) :=
        (countP_append_of_none hgap kind).symm
    _ = ls.countP (isExchangedAs rs kind) := by rw [← happend]

/-- Two exchanges share the instructions between them. -/
theorem countP_append_eq (as bs : List Replacement) (op : Op) (ls : List Lexeme) :
    ls.countP (isExchangedAs (as ++ bs) op) =
      ls.countP (isExchangedAs as op) + (exchanged as ls).countP (isExchangedAs bs op) := by
  fun_induction exchanged as ls with
  | case1 => rfl
  | case2 l ls hnone ih =>
    have hall : l.isExchangedAs (as ++ bs) op = l.isExchangedAs bs op := by
      rw [isExchangedAs, isExchangedAs, replacement?_append, hnone, Option.none_or]
    rw [List.countP_cons, List.countP_cons, List.countP_cons, hall, isExchangedAs_of_none hnone, ih]
    simp only [Bool.false_eq_true, if_false]
    omega
  | case3 l ls r hsome ih =>
    have hall : l.isExchangedAs (as ++ bs) op = l.isExchangedAs as op := by
      rw [isExchangedAs, isExchangedAs, replacement?_append, hsome, Option.some_or]
    rw [countP_append_of_none (replacement?_call bs r), List.countP_cons, List.countP_cons, hall,
      ← countP_behindIndices (as ++ bs) r.op, ← countP_behindIndices as r.op, ih]
    omega

end Lexeme

open Lexeme Occurrence

variable {as bs rs rs' : List Replacement} {source : String} {ts : List Token}

/-! ### The exchange of a text -/

namespace Occurrence

/-- Nothing is refused among some tokens if their lexemes are accepted. -/
theorem refused?_eq_none_iff (rs : List Replacement) (ts : List Token) :
    refused? rs ts = none ↔ Accepts rs (ts.map Token.toLexeme) := by
  induction ts with
  | nil => simp [refused?, Accepts]
  | cons t ts ih =>
    rw [List.map_cons]
    cases hr : t.replacement? rs with
    | none => rw [refused?_cons_of_none hr, accepts_cons_of_none hr, ih]
    | some r =>
      rw [refused?_cons_of_some hr, accepts_cons_of_some hr, ← map_refusedIndex?]
      cases refusedIndex? Token.toLexeme r.op.indexCount (Token.significant ts) with
      | none => simp [ih]
      | some u => simp

/-- What an exchange makes of a text that lexemes tile, unless it refuses it. -/
theorem exchangeAll_of_accepts {ls : List Lexeme} (h : Tiles ls []) (haccepts : Accepts rs ls) :
    exchangeAll (String.ofList (chars ls)) rs =
      .ok ⟨String.ofList (chars (exchanged rs ls)), ls.countP (isExchangedAs rs .copy),
        ls.countP (isExchangedAs rs .fill)⟩ := by
  have hnone : refused? rs (Token.placeAll 0 .start ls) = none := by
    rw [refused?_eq_none_iff, Token.map_toLexeme_placeAll]
    exact haccepts
  rw [exchangeAll_eq rs h, hnone, countP_allIn_placeAll, countP_allIn_placeAll]
  rfl

theorem exchangeAll_of_not_accepts {ls : List Lexeme} (h : Tiles ls []) (hrefused : ¬ Accepts rs ls) :
    ∃ e, exchangeAll (String.ofList (chars ls)) rs = .error e := by
  rw [exchangeAll_eq rs h]
  cases hfault : refused? rs (Token.placeAll 0 .start ls) with
  | some e => exact ⟨e, rfl⟩
  | none =>
    rw [refused?_eq_none_iff, Token.map_toLexeme_placeAll] at hfault
    exact absurd hfault hrefused

/-- Of the replacements only the first one for each instruction matters. -/
theorem exchangeAll_congr (h : ∀ l : Lexeme, l.replacement? rs = l.replacement? rs')
    (source : String) : exchangeAll source rs = exchangeAll source rs' := by
  have hfound (ts : List Token) : inTokens rs ts = inTokens rs' ts := by
    have hsame : refused? rs ts = refused? rs' ts ∧ allIn rs ts = allIn rs' ts := by
      induction ts with
      | nil => exact ⟨rfl, rfl⟩
      | cons t ts ih =>
        constructor
        · rw [refused?, refused?, h, ih.1]
        · rw [allIn, allIn, h, ih.2]
    rw [inTokens_eq, inTokens_eq, hsame.1, hsame.2]
  unfold exchangeAll
  simp only [hfound]

end Occurrence

/-- Exchange the instructions for which there is a replacement in one list, and then, in the text that
comes out, those for which there is one in another. -/
def exchangeInTurn (source : String) (first second : List Replacement) :
    Except PassError (Exchanged × Exchanged) := do
  let x ← exchangeAll source first
  let y ← exchangeAll x.output second
  return (x, y)

/-- What is exchanged in two turns is what would be exchanged at once. -/
inductive SharesWork : Except PassError (Exchanged × Exchanged) → Except PassError Exchanged → Prop where
  | ok {x y : Exchanged} :
      SharesWork (.ok (x, y)) (.ok ⟨y.output, x.copies + y.copies, x.fills + y.fills⟩)
  | error {e e' : PassError} : SharesWork (.error e) (.error e')

theorem exchangeInTurn_of_ok {x : Exchanged} (h : exchangeAll source as = .ok x) :
    exchangeInTurn source as bs = (exchangeAll x.output bs).map fun y => (x, y) := by
  unfold exchangeInTurn
  rw [h]
  change (exchangeAll x.output bs >>= _) = _
  cases exchangeAll x.output bs <;> rfl

theorem of_exchangeInTurn_eq_ok {x y : Exchanged} (h : exchangeInTurn source as bs = .ok (x, y)) :
    exchangeAll source as = .ok x ∧ exchangeAll x.output bs = .ok y := by
  cases hfirst : exchangeAll source as with
  | error e =>
    unfold exchangeInTurn at h
    rw [hfirst] at h
    cases h
  | ok z =>
    rw [exchangeInTurn_of_ok hfirst] at h
    cases hsecond : exchangeAll z.output bs with
    | error e =>
      rw [hsecond] at h
      cases h
    | ok w =>
      rw [hsecond] at h
      cases h
      exact ⟨rfl, hsecond⟩

theorem exchangeInTurn_of_error {e : PassError} (h : exchangeAll source as = .error e) :
    exchangeInTurn source as bs = .error e := by
  unfold exchangeInTurn
  rw [h]
  rfl

/-- Two lists of replacements may take turns. -/
theorem exchangeInTurn_shares (htokens : tokenize source = .ok ts)
    (has : ∀ r ∈ as, isIdentifier r.name = true) (bs : List Replacement) :
    SharesWork (exchangeInTurn source as bs) (exchangeAll source (as ++ bs)) := by
  obtain ⟨ls, -, hchars, htiles⟩ := tiles_of_tokenize htokens
  obtain rfl : String.ofList (chars ls) = source := by rw [hchars, String.ofList_toList]
  have hiff := accepts_append_iff as bs ls
  by_cases hfirst : Accepts as ls
  · have hmiddle : Tiles (exchanged as ls) [] := htiles.exchanged has
    rw [exchangeInTurn_of_ok (exchangeAll_of_accepts htiles hfirst)]
    by_cases hsecond : Accepts bs (exchanged as ls)
    · rw [exchangeAll_of_accepts hmiddle hsecond,
        exchangeAll_of_accepts htiles (hiff.2 ⟨hfirst, hsecond⟩), ← exchanged_exchanged,
        countP_append_eq, countP_append_eq]
      exact .ok
    · obtain ⟨e, he⟩ := exchangeAll_of_not_accepts hmiddle hsecond
      obtain ⟨e', he'⟩ := exchangeAll_of_not_accepts htiles fun hall => hsecond (hiff.1 hall).2
      rw [he, he']
      exact .error
  · obtain ⟨e, he⟩ := exchangeAll_of_not_accepts htiles hfirst
    obtain ⟨e', he'⟩ := exchangeAll_of_not_accepts htiles fun hall => hfirst (hiff.1 hall).1
    rw [exchangeInTurn_of_error he, he']
    exact .error

/-! ### One replacement for each instruction -/

/-- Two replacements for different instructions never compete. -/
theorem replacement?_swap {c f : Replacement} (h : c.op ≠ f.op) (l : Lexeme) :
    l.replacement? [c, f] = l.replacement? [f, c] := by
  rw [replacement?_eq, replacement?_eq]
  cases l.op? with
  | none => rfl
  | some op =>
    by_cases hc : c.op = op
    · have hf : f.op ≠ op := fun hf => h (hc.trans hf.symm)
      simp [hc, hf]
    · by_cases hf : f.op = op <;> simp [hc, hf]

/-- What a success of an exchange says about the text. -/
theorem exists_of_exchangeAll_eq_ok {x : Exchanged} (h : exchangeAll source rs = .ok x) :
    ∃ ls, Tiles ls [] ∧ String.ofList (chars ls) = source ∧
      x = ⟨String.ofList (chars (exchanged rs ls)), ls.countP (isExchangedAs rs .copy),
        ls.countP (isExchangedAs rs .fill)⟩ := by
  cases htokens : tokenize source with
  | error e =>
    unfold exchangeAll at h
    rw [htokens] at h
    cases h
  | ok ts =>
    obtain ⟨ls, -, hchars, htiles⟩ := tiles_of_tokenize htokens
    obtain rfl : String.ofList (chars ls) = source := by rw [hchars, String.ofList_toList]
    refine ⟨ls, htiles, rfl, ?_⟩
    by_cases haccepts : Accepts rs ls
    · rw [exchangeAll_of_accepts htiles haccepts] at h
      exact (Except.ok.inj h).symm
    · obtain ⟨e, he⟩ := exchangeAll_of_not_accepts htiles haccepts
      rw [he] at h
      cases h

/-- The part of an exchange that concerns one instruction, with another text. -/
def Exchanged.share (x : Exchanged) (text : String) : Op → Exchanged
  | .copy => ⟨text, x.copies, 0⟩
  | .fill => ⟨text, 0, x.fills⟩

/-- Without a replacement for an instruction none of its kind is exchanged. -/
theorem countP_eq_zero_of_ne {op : Op} {r : Replacement} (h : r.op ≠ op) (ls : List Lexeme) :
    ls.countP (isExchangedAs [r] op) = 0 := by
  apply List.countP_eq_zero.2
  intro l _ hl
  obtain ⟨q, hq, hop⟩ := Option.map_eq_some_iff.1 (of_decide_eq_true hl)
  obtain rfl : q = r := by simpa using (replacement?_eq_some hq).2.1
  exact h hop

/-- A single replacement counts its own instruction only. -/
theorem share_of_exchangeAll_singleton {r : Replacement} {x : Exchanged}
    (h : exchangeAll source [r] = .ok x) : x.share x.output r.op = x := by
  obtain ⟨ls, -, -, rfl⟩ := exists_of_exchangeAll_eq_ok h
  cases hop : r.op with
  | copy =>
    have hfill : ls.countP (isExchangedAs [r] .fill) = 0 :=
      countP_eq_zero_of_ne (by simp [hop]) ls
    simp only [Exchanged.share, hfill]
  | fill =>
    have hcopy : ls.countP (isExchangedAs [r] .copy) = 0 :=
      countP_eq_zero_of_ne (by simp [hop]) ls
    simp only [Exchanged.share, hcopy]

/-- Two replacements for different instructions, one after the other. -/
theorem exchangeInTurn_pair {r q : Replacement} (htokens : tokenize source = .ok ts)
    (hr : isIdentifier r.name = true) (hops : r.op ≠ q.op) :
    (∀ x, exchangeAll source [r, q] = .ok x → ∃ middle,
      exchangeInTurn source [r] [q] = .ok (x.share middle r.op, x.share x.output q.op)) ∧
    ∀ e, exchangeAll source [r, q] = .error e → ∃ e', exchangeInTurn source [r] [q] = .error e' := by
  have hshares : SharesWork (exchangeInTurn source [r] [q]) (exchangeAll source [r, q]) :=
    exchangeInTurn_shares htokens (by simpa using hr) [q]
  constructor
  · intro x hx
    rw [hx] at hshares
    generalize hturns : exchangeInTurn source [r] [q] = turns at hshares
    cases hshares with
    | @ok y z =>
      obtain ⟨hfirst, hsecond⟩ := of_exchangeInTurn_eq_ok hturns
      have hy := share_of_exchangeAll_singleton hfirst
      have hz := share_of_exchangeAll_singleton hsecond
      refine ⟨y.output, ?_⟩
      rw [← hy, ← hz]
      cases hrop : r.op <;> cases hqop : q.op
      · exact absurd (hrop.trans hqop.symm) hops
      · simp [Exchanged.share]
      · simp [Exchanged.share]
      · exact absurd (hrop.trans hqop.symm) hops
  · intro e he
    rw [he] at hshares
    generalize exchangeInTurn source [r] [q] = turns at hshares
    cases hshares with
    | error => exact ⟨_, rfl⟩

/-- It does not matter in which order the two instructions are exchanged, or whether at once. -/
theorem exchangeAll_in_either_order {c f : Replacement} (htokens : tokenize source = .ok ts)
    (hcopy : c.op = .copy) (hfill : f.op = .fill) (hc : isIdentifier c.name = true)
    (hf : isIdentifier f.name = true) :
    (∀ output copies fills, exchangeAll source [c, f] = .ok ⟨output, copies, fills⟩ →
      (∃ middle, exchangeInTurn source [c] [f] = .ok (⟨middle, copies, 0⟩, ⟨output, 0, fills⟩)) ∧
        ∃ middle, exchangeInTurn source [f] [c] = .ok (⟨middle, 0, fills⟩, ⟨output, copies, 0⟩)) ∧
    ∀ e, exchangeAll source [c, f] = .error e →
      (∃ e', exchangeInTurn source [c] [f] = .error e') ∧
        ∃ e', exchangeInTurn source [f] [c] = .error e' := by
  have hops : c.op ≠ f.op := by simp [hcopy, hfill]
  have hswap : exchangeAll source [c, f] = exchangeAll source [f, c] :=
    exchangeAll_congr (replacement?_swap hops) source
  obtain ⟨hcopyFirst, hcopyFails⟩ := exchangeInTurn_pair htokens hc hops
  obtain ⟨hfillFirst, hfillFails⟩ := exchangeInTurn_pair htokens hf hops.symm
  constructor
  · intro output copies fills h
    have hturns := hcopyFirst _ h
    have hturns' := hfillFirst _ (hswap ▸ h)
    rw [hcopy, hfill] at hturns hturns'
    exact ⟨hturns, hturns'⟩
  · intro e h
    exact ⟨hcopyFails e h, hfillFails e (hswap ▸ h)⟩

/-- Each instruction stands where the other one would look for an index. -/
theorem exchangeAll_in_either_order_side_by_side :
    ∃ ts, tokenize "memory.fill memory.copy 0 memory.fill 0" = .ok ts ∧
      (∃ middle, exchangeInTurn "memory.fill memory.copy 0 memory.fill 0" [.named .copy "a"]
        [.named .fill "b"] = .ok (⟨middle, 1, 0⟩, ⟨"call $b call $a 0 call $b", 0, 2⟩)) ∧
      ∃ middle, exchangeInTurn "memory.fill memory.copy 0 memory.fill 0" [.named .fill "b"]
        [.named .copy "a"] = .ok (⟨middle, 0, 2⟩, ⟨"call $b call $a 0 call $b", 1, 0⟩) := by
  have hlexemes : Lexer.run "memory.fill memory.copy 0 memory.fill 0".toList =
      ([⟨.keyword, "memory.fill"⟩, ⟨.blank, " "⟩, ⟨.keyword, "memory.copy"⟩, ⟨.blank, " "⟩,
        ⟨.number, "0"⟩, ⟨.blank, " "⟩, ⟨.keyword, "memory.fill"⟩, ⟨.blank, " "⟩, ⟨.number, "0"⟩],
        none) := by
    decide +kernel
  have htokens := tokenize.eq_def "memory.fill memory.copy 0 memory.fill 0"
  rw [hlexemes] at htokens
  have hboth : exchangeAll "memory.fill memory.copy 0 memory.fill 0"
      [.named .copy "a", .named .fill "b"] = .ok ⟨"call $b call $a 0 call $b", 1, 2⟩ := by
    have hresult : (exchangeAll "memory.fill memory.copy 0 memory.fill 0"
        [.named .copy "a", .named .fill "b"]).toOption = some ⟨"call $b call $a 0 call $b", 1, 2⟩ := by
      decide +kernel
    cases hexchange : exchangeAll "memory.fill memory.copy 0 memory.fill 0"
        [.named .copy "a", .named .fill "b"] with
    | error e =>
      rw [hexchange] at hresult
      cases hresult
    | ok x =>
      rw [hexchange] at hresult
      cases hresult
      rfl
  exact ⟨_, htokens, (exchangeAll_in_either_order htokens rfl rfl (by decide) (by decide)).1 _ _ _
    hboth⟩

end BulkMemory
