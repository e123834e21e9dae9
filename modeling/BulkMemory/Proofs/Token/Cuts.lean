import BulkMemory.Proofs.Token.Coverage

/-!
# Cutting a source between two tokens

The lexer looks ahead at most at what follows a lexeme, so a source may be cut between any two of its
tokens, and both parts fall into the same tokens as before (`tokenize_cut`). Those of the second part
are told from where it begins: their offsets are less by the size of the first part, and
`Position.relativeTo` says what becomes of lines and columns.
-/

namespace BulkMemory
set_option autoImplicit false

open Lexeme

namespace Position

/-- A position of a text as it is seen from an earlier one: that one becomes the start, and only
positions on its line come to stand in another column. -/
def relativeTo (p origin : Position) : Position :=
  ⟨p.line - origin.line + 1,
    if p.line = origin.line then p.column - origin.column + 1 else p.column⟩

/-- Behind a line feed the column does not depend on where a text begins. -/
theorem column_after_of_mem (p q : Position) {cs : List Char} (h : '\n' ∈ cs) :
    (p.after cs).column = (q.after cs).column := by
  induction cs generalizing p q with
  | nil => cases h
  | cons c cs ih =>
    rw [after_cons, after_cons]
    by_cases hfeed : '\n' ∈ cs
    · exact ih _ _ hfeed
    · obtain rfl : c = '\n' := by simpa [hfeed, eq_comm] using h
      rw [column_after _ hfeed, column_after _ hfeed, advance, if_pos rfl, advance, if_pos rfl]

/-- What follows a place counts from there on as it would from the start. -/
theorem relativeTo_after (p : Position) (cs : List Char) :
    (p.after cs).relativeTo p = start.after cs := by
  have hline : (p.after cs).line - p.line + 1 = (start.after cs).line := by
    rw [line_after, line_after, Nat.add_sub_cancel_left, Nat.add_comm]
    rfl
  rw [relativeTo, hline]
  by_cases hfeed : '\n' ∈ cs
  · have hbelow : (p.after cs).line ≠ p.line := by
      have hpos := List.count_pos_iff.2 hfeed
      rw [line_after]
      omega
    rw [if_neg hbelow, column_after_of_mem p start hfeed]
  · have hsame : (p.after cs).line = p.line := by
      rw [line_after, List.count_eq_zero_of_not_mem hfeed, Nat.add_zero]
    have hcolumn : p.column + cs.length - p.column + 1 = (start.after cs).column := by
      rw [column_after start hfeed, Nat.add_sub_cancel_left, Nat.add_comm]
      rfl
    rw [if_pos hsame, column_after p hfeed, hcolumn]

end Position

/-- A token of a text as it stands in the part of the text that begins at the given place. -/
def Token.rebased (offset : Nat) (origin : Position) (t : Token) : Token :=
  { t with start := t.start - offset, position := t.position.relativeTo origin }

/-- The offset behind the last of some tokens. -/
def Token.endOf (ts : List Token) : Nat := (ts.getLast?.map Token.stop).getD 0

namespace Lexeme

variable {as bs : List Lexeme} {rest : List Char}

/-- A lexeme does not miss what is cut off behind it. -/
theorem IsNext.of_append {kind : Kind} {text gap : List Char} (h : IsNext kind text (gap ++ rest)) :
    IsNext kind text gap := by
  cases gap with
  | nil => exact h.at_end
  | cons c cs => exact h.congr rfl

/-- A row of complete lexemes may end behind any of them. -/
theorem AllComplete.front (h : AllComplete (as ++ bs) rest) : AllComplete as [] := by
  intro before l after hsplit
  have hl := isComplete_iff.1 (h before l (after ++ bs) (by rw [hsplit]; simp))
  rw [chars_append, List.append_assoc] at hl
  rw [List.append_nil]
  exact isComplete_iff.2 hl.of_append

theorem AllComplete.back (h : AllComplete (as ++ bs) rest) : AllComplete bs rest := by
  intro before l after hsplit
  exact h (as ++ before) l after (by rw [hsplit, List.append_assoc])

end Lexeme

namespace AreTokensOf

variable {source : String} {ts us : List Token}

theorem front (h : AreTokensOf source (ts ++ us)) :
    AreTokensOf (String.ofList (chars (ts.map Token.toLexeme))) ts := by
  have hcomplete := h.complete
  rw [List.map_append] at hcomplete
  refine ⟨by rw [String.toList_ofList], hcomplete.front, ?_⟩
  intro before t after hsplit
  exact h.placed before t (after ++ us) (by rw [hsplit]; simp)

/-- What follows some tokens falls into the tokens behind them. -/
theorem back (h : AreTokensOf source (ts ++ us)) :
    AreTokensOf (String.ofList (chars (us.map Token.toLexeme)))
      (us.map (Token.rebased (byteSize (chars (ts.map Token.toLexeme)))
        (placeBehind (chars (ts.map Token.toLexeme))))) := by
  have hlexemes (vs : List Token) (offset : Nat) (origin : Position) :
      (vs.map (Token.rebased offset origin)).map Token.toLexeme = vs.map Token.toLexeme := by
    rw [List.map_map]
    rfl
  have hcomplete := h.complete
  rw [List.map_append] at hcomplete
  refine ⟨by rw [hlexemes, String.toList_ofList], by rw [hlexemes]; exact hcomplete.back, ?_⟩
  intro before t after hsplit
  obtain ⟨before', rest', rfl, rfl, hrest⟩ := List.map_eq_append_iff.1 hsplit
  obtain ⟨t', after', rfl, rfl, -⟩ := List.map_eq_cons_iff.1 hrest
  obtain ⟨hstart, hposition⟩ := h.placed (ts ++ before') t' after' (by simp)
  rw [List.map_append, chars_append] at hstart hposition
  rw [hlexemes]
  constructor
  · rw [Token.rebased, hstart, byteSize_append, Nat.add_sub_cancel_left]
  · rw [Token.rebased, hposition, ← start_after, Position.after_append, ← start_after,
      Position.relativeTo_after, start_after]

/-- The tokens of a text end where it does. -/
theorem endOf_eq (h : AreTokensOf source ts) : Token.endOf ts = source.utf8ByteSize := by
  rcases List.eq_nil_or_concat ts with rfl | ⟨init, t, rfl⟩
  · rw [← byteSize_toList, ← h.covering]
    rfl
  · rw [List.concat_eq_append] at h ⊢
    rw [Token.endOf, List.getLast?_concat]
    exact h.stop_getLast?

end AreTokensOf

/-- A source may be cut behind any number of its tokens. The first part falls into these tokens, and
the second one into the others, with their places told from the cut. -/
theorem tokenize_cut {source : String} {ts : List Token} (htokens : tokenize source = .ok ts)
    (count : Nat) :
    ∃ front back, source = front ++ back ∧
      front.utf8ByteSize = Token.endOf (ts.take count) ∧
      tokenize front = .ok (ts.take count) ∧
      tokenize back = .ok ((ts.drop count).map
        (Token.rebased front.utf8ByteSize (placeBehind front.toList))) := by
  have h := areTokensOf_iff.2 htokens
  rw [← List.take_append_drop count ts] at h
  refine ⟨_, String.ofList (chars ((ts.drop count).map Token.toLexeme)), ?_, h.front.endOf_eq.symm,
    areTokensOf_iff.1 h.front, ?_⟩
  · rw [← String.toList_inj, ← h.covering, List.map_append, chars_append, String.toList_append,
      String.toList_ofList, String.toList_ofList]
  · rw [utf8ByteSize_ofList, String.toList_ofList]
    exact areTokensOf_iff.1 h.back

/-- A cut behind a line feed and a character of two bytes, in front of a string with a line feed. -/
theorem tokenize_cut_lines :
    ∃ ts, tokenize "(;\né;)\"a\nb\" ;" = .ok ts ∧
      ∃ front back, "(;\né;)\"a\nb\" ;" = front ++ back ∧
        front.utf8ByteSize = Token.endOf (ts.take 1) ∧
        tokenize front = .ok (ts.take 1) ∧
        tokenize back = .ok ((ts.drop 1).map
          (Token.rebased front.utf8ByteSize (placeBehind front.toList))) := by
  have hlexemes : Lexer.run "(;\né;)\"a\nb\" ;".toList =
      ([⟨.blockComment, "(;\né;)"⟩, ⟨.string, "\"a\nb\""⟩, ⟨.blank, " "⟩, ⟨.reserved, ";"⟩], none) := by
    decide +kernel
  have htokens := tokenize.eq_def "(;\né;)\"a\nb\" ;"
  rw [hlexemes] at htokens
  exact ⟨_, htokens, tokenize_cut htokens 1⟩

end BulkMemory
