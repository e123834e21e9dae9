import BulkMemory.Proofs.Occurrence.Exchange
import BulkMemory.Proofs.Token.Cursor

/-!
# The exchange at offsets and indices

The functions of this module exchange the instructions of a text by walking an index over its tokens
and slicing the text at their offsets. They come to nothing when an index or a slice does not fit, or
when a loop has no end. `exchangeByOffset?_eq` says that this never happens, whatever the text and the
replacements are.
-/

namespace BulkMemory
set_option autoImplicit false

/-! ### The search for indices -/

/-- The items of a list from an index on, which may be the one behind the last. -/
def tail? {α : Type} (index : Nat) (xs : List α) : Option (List α) :=
  if index ≤ xs.length then some (xs.drop index) else none

/-- What the search for the indices behind a mnemonic finds. -/
inductive Lookahead where
  | omitted
  /-- The last index ends at `stop`, and the search of the text goes on at `next`. -/
  | zeros (stop next : Nat)
  | unsupported (operand : Token)

namespace Lookahead

/-- Look for `count` more indices from a token on, the last one so far ending at `stop`. -/
def read? (tokens : List Token) (stop : Nat) : (count index : Nat) → Option Lookahead
  | 0, index => some (.zeros stop index)
  | count + 1, index => do
    let behind ← tail? index tokens
    match behind.findIdx? (!·.isTrivia) with
    | none => return .omitted
    | some offset =>
      let t ← tokens[index + offset]?
      if t.isZero then read? tokens t.stop count (index + offset + 1)
      else if t.kind = .number ∨ t.kind = .id then return .unsupported t
      else return .omitted

/-- Two searches find the same: one says where to go on, the other what is left. -/
inductive Matches (tokens : List Token) : Lookahead → Indices → Prop where
  | omitted : Matches tokens .omitted .omitted
  | zeros {stop next : Nat} : next ≤ tokens.length →
      Matches tokens (.zeros stop next) (.zeros stop (tokens.drop next))
  | unsupported (operand : Token) : Matches tokens (.unsupported operand) (.unsupported operand)

variable {tokens : List Token} {index : Nat}

/-- The search begins with the first token that carries meaning. -/
theorem read_eq (stop count : Nat) (ts : List Token) :
    Indices.read stop (count + 1) ts =
      match ts.findIdx? (!·.isTrivia) with
      | none => .omitted
      | some offset => Indices.read stop (count + 1) (ts.drop offset) := by
  induction ts with
  | nil => rfl
  | cons t ts ih =>
    rw [List.findIdx?_cons]
    cases htrivia : t.isTrivia with
    | false => rfl
    | true =>
      rw [Indices.read, if_pos htrivia, ih]
      cases ts.findIdx? (!·.isTrivia) <;> rfl

/-- Every index that the search uses lies in the list. -/
theorem read?_matches (stop count : Nat) (h : index ≤ tokens.length) :
    ∃ found, read? tokens stop count index = some found ∧
      Matches tokens found (Indices.read stop count (tokens.drop index)) := by
  induction count generalizing stop index with
  | zero =>
    rw [Indices.read]
    exact ⟨.zeros stop index, rfl, .zeros h⟩
  | succ count ih =>
    rw [read?, tail?, if_pos h, read_eq]
    cases hfind : (tokens.drop index).findIdx? (!·.isTrivia) with
    | none => exact ⟨.omitted, by simp [hfind], .omitted⟩
    | some offset =>
      obtain ⟨hoffset, hmeaning, -⟩ := List.findIdx?_eq_some_iff_getElem.1 hfind
      rw [List.length_drop] at hoffset
      have hindex : index + offset < tokens.length := by omega
      have hget : tokens[index + offset]? = some tokens[index + offset] :=
        List.getElem?_eq_getElem hindex
      rw [List.getElem_drop] at hmeaning
      simp only [hfind, hget, Option.bind_eq_bind, Option.bind_some, List.drop_drop,
        List.drop_eq_getElem_cons hindex]
      generalize tokens[index + offset] = t at hmeaning
      have hmeaning : t.isTrivia = false := by simpa using hmeaning
      by_cases hzero : t.isZero = true
      · obtain ⟨found, hread, hfound⟩ := ih t.stop (show index + offset + 1 ≤ tokens.length by omega)
        refine ⟨found, ?_, ?_⟩
        · rw [if_pos hzero, hread]
        · simpa [Indices.read, hmeaning, hzero] using hfound
      by_cases hkind : t.kind = .number ∨ t.kind = .id
      · refine ⟨.unsupported t, ?_, ?_⟩
        · rw [if_neg hzero, if_pos hkind]
          rfl
        · simpa [Indices.read, hmeaning, hzero, hkind] using .unsupported t
      · refine ⟨.omitted, ?_, ?_⟩
        · rw [if_neg hzero, if_neg hkind]
          rfl
        · simpa [Indices.read, hmeaning, hzero, hkind] using .omitted

end Lookahead

/-! ### The search for instructions -/

namespace Occurrence

/-- Look at one token for an instruction that has a replacement, behind those found before. -/
def searchRound? (rs : List Replacement) (tokens : List Token) :
    Nat × List Occurrence → Option (Except PassError (List Occurrence) ⊕ Nat × List Occurrence)
  | (index, found) =>
    if index < tokens.length then do
      let t ← tokens[index]?
      match replacementFor? rs t with
      | none => return .inr (index + 1, found)
      | some r =>
        match ← Lookahead.read? tokens t.stop r.op.indexCount (index + 1) with
        | .omitted => return .inr (index + 1, found ++ [⟨r.op, t.span, r.target⟩])
        | .zeros stop next => return .inr (next, found ++ [⟨r.op, ⟨t.start, stop⟩, r.target⟩])
        | .unsupported operand =>
          return .inl (.error (.unsupportedOperand r.op.mnemonic operand.text operand.position))
    else some (.inl (.ok found))

/-- The instructions from a token on that have a replacement. -/
noncomputable def searchFrom? (rs : List Replacement) (tokens : List Token) (index : Nat) :
    Option (Except PassError (List Occurrence)) :=
  loop? (searchRound? rs tokens) (index, [])

variable {rs : List Replacement} {tokens : List Token} {index : Nat}

/-- Where a list goes on with a token, the token stands at that index. -/
theorem of_drop_eq_cons {t : Token} {ts : List Token} (h : tokens.drop index = t :: ts) :
    index < tokens.length ∧ tokens[index]? = some t ∧ tokens.drop (index + 1) = ts := by
  rcases Nat.lt_or_ge index tokens.length with hindex | hindex
  · rw [List.drop_eq_getElem_cons hindex] at h
    injection h with hget hrest
    exact ⟨hindex, by rw [List.getElem?_eq_getElem hindex, hget], hrest⟩
  · rw [List.drop_eq_nil_of_le hindex] at h
    cases h

/-- One round of the search, at an instruction that has a replacement. -/
theorem searchRound?_of_some {t : Token} {r : Replacement} (hindex : index < tokens.length)
    (hget : tokens[index]? = some t) (hsome : replacementFor? rs t = some r)
    (found : List Occurrence) :
    searchRound? rs tokens (index, found) =
      (Lookahead.read? tokens t.stop r.op.indexCount (index + 1)).map fun
        | .omitted => .inr (index + 1, found ++ [⟨r.op, t.span, r.target⟩])
        | .zeros stop next => .inr (next, found ++ [⟨r.op, ⟨t.start, stop⟩, r.target⟩])
        | .unsupported operand =>
          .inl (.error (.unsupportedOperand r.op.mnemonic operand.text operand.position)) := by
  rw [searchRound?, if_pos hindex, hget, Option.bind_eq_bind, Option.bind_some, hsome,
    Option.map_eq_bind]
  refine congrArg (Option.bind _) (funext fun lookahead => ?_)
  cases lookahead <;> rfl

/-- The search by index finds what the search along the list finds, behind what was found before. -/
theorem loop?_searchRound? (rs : List Replacement) (h : index ≤ tokens.length)
    (found : List Occurrence) :
    loop? (searchRound? rs tokens) (index, found) =
      some ((inTokens rs (tokens.drop index)).map (found ++ ·)) := by
  generalize hdrop : tokens.drop index = ts
  fun_induction inTokens rs ts generalizing index found with
  | case1 =>
    have hlength := List.drop_eq_nil_iff.1 hdrop
    apply loop?_done
    rw [searchRound?, if_neg (by omega)]
    simp [Except.map]
  | case2 t ts hnone ih =>
    obtain ⟨hindex, hget, hrest⟩ := of_drop_eq_cons hdrop
    have hround : searchRound? rs tokens (index, found) = some (.inr (index + 1, found)) := by
      rw [searchRound?, if_pos hindex, hget, Option.bind_eq_bind, Option.bind_some, hnone]
      rfl
    rw [loop?_next hround]
    exact ih hindex found hrest
  | case3 t ts r hsome hread ih =>
    obtain ⟨hindex, hget, rfl⟩ := of_drop_eq_cons hdrop
    obtain ⟨lookahead, hlookahead, hmatches⟩ :=
      Lookahead.read?_matches t.stop r.op.indexCount hindex
    rw [hread] at hmatches
    cases hmatches
    have hround := searchRound?_of_some hindex hget hsome found
    rw [hlookahead, Option.map_some] at hround
    rw [loop?_next hround, ih hindex _ rfl]
    cases inTokens rs (tokens.drop (index + 1)) <;> simp [Except.map]
  | case4 t ts r hsome stop rest hread ih =>
    obtain ⟨hindex, hget, rfl⟩ := of_drop_eq_cons hdrop
    obtain ⟨lookahead, hlookahead, hmatches⟩ :=
      Lookahead.read?_matches t.stop r.op.indexCount hindex
    rw [hread] at hmatches
    cases hmatches with
    | @zeros _ next hnext =>
      have hround := searchRound?_of_some hindex hget hsome found
      rw [hlookahead, Option.map_some] at hround
      rw [loop?_next hround, ih hnext _ rfl]
      cases inTokens rs (tokens.drop next) <;> simp [Except.map]
  | case5 t ts r hsome operand hread =>
    obtain ⟨hindex, hget, rfl⟩ := of_drop_eq_cons hdrop
    obtain ⟨lookahead, hlookahead, hmatches⟩ :=
      Lookahead.read?_matches t.stop r.op.indexCount hindex
    rw [hread] at hmatches
    cases hmatches
    apply loop?_done
    rw [searchRound?_of_some hindex hget hsome, hlookahead]
    rfl

/-- The search by index finds what the search along the list finds. -/
theorem searchFrom?_eq (rs : List Replacement) (h : index ≤ tokens.length) :
    searchFrom? rs tokens index = some (inTokens rs (tokens.drop index)) := by
  rw [searchFrom?, loop?_searchRound? rs h]
  cases inTokens rs (tokens.drop index) <;> rfl

/-! ### The exchange -/

/-- Exchange some instructions in the part of a text that begins at byte `cursor`. -/
def spliceFrom? (text : List Char) (cursor : Nat) : List Occurrence → Option (List Char)
  | [] => slice? ⟨cursor, byteSize text⟩ text
  | o :: os => do
    let kept ← slice? ⟨cursor, o.span.start⟩ text
    let after ← spliceFrom? text o.span.stop os
    return kept ++ o.edit.text.toList ++ after

/-- Edits that fit can be made by slices of the whole text. -/
theorem spliceFrom?_of_applyFrom? {os : List Occurrence} (front : List Char) {cs out : List Char}
    (h : Edit.applyFrom? (byteSize front) (os.map edit) cs = some out) :
    spliceFrom? (front ++ cs) (byteSize front) os = some out := by
  induction os generalizing front cs out with
  | nil =>
    cases h
    exact slice?_eq_some_iff.2 ⟨front, [], by simp, by rw [byteSize_append]⟩
  | cons o os ih =>
    rw [List.map_cons, Edit.applyFrom?] at h
    split at h
    · next hordered =>
      obtain ⟨⟨kept, tail⟩, hkept, h⟩ := Option.bind_eq_some_iff.1 h
      obtain ⟨⟨gone, rest⟩, hgone, h⟩ := Option.bind_eq_some_iff.1 h
      obtain ⟨after, hafter, h⟩ := Option.bind_eq_some_iff.1 h
      cases h
      obtain ⟨rfl, hstart⟩ := eq_append_of_splitAt? hkept
      obtain ⟨rfl, hstop⟩ := eq_append_of_splitAt? hgone
      have hcursor : byteSize front ≤ o.span.start ∧ o.span.start ≤ o.span.stop := hordered
      have hstart : o.span.start = byteSize front + byteSize kept := by
        rw [hstart]
        exact (Nat.add_sub_cancel' hcursor.1).symm
      have hstop : o.span.stop = byteSize (front ++ kept ++ gone) := by
        rw [byteSize_append, byteSize_append, ← hstart, hstop]
        exact (Nat.add_sub_cancel' hcursor.2).symm
      have hslice : slice? ⟨byteSize front, o.span.start⟩ (front ++ (kept ++ (gone ++ rest))) =
          some kept := by
        rw [hstart, slice?_append]
      have hlater := ih (front ++ kept ++ gone) (hstop ▸ hafter)
      rw [← hstop, List.append_assoc, List.append_assoc] at hlater
      simp only [spliceFrom?, hslice, hlater, Option.bind_eq_bind, Option.bind_some]
      rfl
    · cases h

end Occurrence

/-- The exchange by offsets and indices. -/
noncomputable def exchangeByOffset? (source : String) (rs : List Replacement) :
    Option (Except PassError Exchanged) := do
  match ← Cursor.tokens? source.toList .start with
  | .error e => return .error (.lex e)
  | .ok tokens =>
    match ← Occurrence.searchFrom? rs tokens 0 with
    | .error e => return .error e
    | .ok found =>
      let output ← Occurrence.spliceFrom? source.toList 0 found
      return .ok ⟨String.ofList output, found.countP (·.op = .copy), found.countP (·.op = .fill)⟩

variable {source : String} {ts : List Token} {found : List Occurrence}

open Lexeme Occurrence

/-- The instructions found in a text can be exchanged, in one pass and by slices alike. -/
theorem exists_spliceFrom? {rs : List Replacement} (htokens : tokenize source = .ok ts)
    (hfound : inTokens rs ts = .ok found) :
    ∃ out, Edit.applyAll? (found.map edit) source = some (String.ofList out) ∧
      spliceFrom? source.toList 0 found = some out := by
  obtain ⟨ls, rfl, hchars, -⟩ := tiles_of_tokenize htokens
  rw [inTokens_eq] at hfound
  split at hfound
  · cases hfound
  · cases hfound
    have hedits := applyFrom?_allIn rs ls 0 .start [] [] (by simp)
    simp only [List.append_nil, Edit.applyFrom?_nil, Option.map_some, hchars] at hedits
    refine ⟨_, ?_, spliceFrom?_of_applyFrom? [] hedits⟩
    rw [Edit.applyAll?, hedits]
    rfl

theorem refused?_ne_misplacedEdit (rs : List Replacement) (ts : List Token) :
    refused? rs ts ≠ some .misplacedEdit := by
  fun_induction refused? rs ts with
  | case1 => simp
  | case2 t ts hnone ih => exact ih
  | case3 t ts r hsome u hrefused => simp
  | case4 t ts r hsome hrefused ih => exact ih

/-- How an exchange ends: with the fault of a lexeme, with a refused index, or with the spliced text. -/
inductive ExchangeEnds (source : String) (rs : List Replacement) :
    Except PassError Exchanged → Prop where
  | unfinished {e : LexError} : tokenize source = .error e → ExchangeEnds source rs (.error (.lex e))
  | refused {ts : List Token} {e : PassError} : tokenize source = .ok ts →
      inTokens rs ts = .error e → e ≠ .misplacedEdit → ExchangeEnds source rs (.error e)
  | spliced {ts : List Token} {found : List Occurrence} {out : List Char} :
      tokenize source = .ok ts → inTokens rs ts = .ok found →
      spliceFrom? source.toList 0 found = some out →
      ExchangeEnds source rs (.ok ⟨String.ofList out, found.countP (·.op = .copy),
        found.countP (·.op = .fill)⟩)

theorem exchangeAll_ends (source : String) (rs : List Replacement) :
    ExchangeEnds source rs (exchangeAll source rs) := by
  cases htokens : tokenize source with
  | error e =>
    rw [exchangeAll, htokens]
    exact .unfinished htokens
  | ok ts =>
    cases hfound : inTokens rs ts with
    | error e =>
      have hfault : exchangeAll source rs = .error e := by
        rw [exchangeAll, htokens]
        show (inTokens rs ts >>= _) = _
        rw [hfound]
        rfl
      rw [hfault]
      refine .refused htokens hfound fun he => ?_
      rw [inTokens_eq, he] at hfound
      cases hrefused : refused? rs ts with
      | none =>
        rw [hrefused] at hfound
        cases hfound
      | some e' =>
        rw [hrefused] at hfound
        injection hfound with hsame
        exact refused?_ne_misplacedEdit rs ts (hsame ▸ hrefused)
    | ok found =>
      obtain ⟨out, hedits, hsplice⟩ := exists_spliceFrom? htokens hfound
      rw [exchangeAll_of_inTokens htokens hfound hedits]
      exact .spliced htokens hfound hsplice

/-- The exchange by offsets never comes to nothing: it yields what the exchange yields. -/
theorem exchangeByOffset?_eq (source : String) (rs : List Replacement) :
    exchangeByOffset? source rs = some (exchangeAll source rs) := by
  have hsearch (ts : List Token) : searchFrom? rs ts 0 = some (inTokens rs ts) :=
    searchFrom?_eq rs (Nat.zero_le ts.length)
  have hends := exchangeAll_ends source rs
  generalize exchangeAll source rs = result at hends
  rw [exchangeByOffset?, Cursor.tokens?_start]
  cases hends with
  | unfinished htokens =>
    rw [htokens]
    rfl
  | refused htokens hfound _ =>
    simp only [htokens, Option.bind_eq_bind, Option.bind_some, hsearch, hfound]
    rfl
  | spliced htokens hfound hsplice =>
    simp only [htokens, Option.bind_eq_bind, Option.bind_some, hsearch, hfound, hsplice]
    rfl

/-- The edits of an exchange always fit. -/
theorem exchangeAll_ne_misplacedEdit (source : String) (rs : List Replacement) :
    exchangeAll source rs ≠ .error .misplacedEdit := by
  have hends := exchangeAll_ends source rs
  intro h
  rw [h] at hends
  cases hends with
  | refused _ _ hother => exact hother rfl

end BulkMemory
