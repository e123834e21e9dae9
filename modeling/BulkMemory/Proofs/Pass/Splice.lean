import BulkMemory.Pass
import BulkMemory.Proofs.Layout.Anchor
import BulkMemory.Proofs.Replacement.Names

/-!
# Functions spliced into a module

The functions go in between two lexemes of the module (`Splice`), on lines of their own, so that
the old lexemes, those of the functions and the old ones again fall side by side into the enlarged
text (`Splice.tiles`). The functions hold nothing to exchange and no index, so the exchange deals with
the two parts of the module alone: `Splice.replaceAll_eq` says with what it succeeds, and
`Splice.refused?_eq` that it fails where the old module gives a reason.
-/

namespace BulkMemory
set_option autoImplicit false

open Lexeme

/-- The lexemes of the functions, one function behind the other. -/
def functionLexemes (rs : List Replacement) : List Lexeme :=
  rs.flatMap fun r => r.function.form.lexemes

/-- The inserted text reads as the functions, and anything may stand on either side. -/
theorem reads_insertedText {rs : List Replacement}
    (hrs : ∀ r ∈ rs, r.function.isWritable = true) {indent : String}
    (hindent : Config.isIndent indent = true) (wrapped : Bool) :
    Reads (fun _ => True) (insertedText rs indent wrapped).toList (functionLexemes rs) := by
  induction rs with
  | nil => exact .nil
  | cons r rs ih =>
    have hr := Function.reads_render (hrs r List.mem_cons_self) hindent wrapped.toNat
    have hline := reads_break.append (hr.append reads_break fun rest _ c hc => by simpa using hc.symm)
      fun _ _ => trivial
    have hall := hline.append (ih fun q hq => hrs q (List.mem_cons_of_mem r hq)) fun _ _ => trivial
    simpa [insertedText, functionLexemes, Replacement.render] using hall

/-- The inserted text begins on a line of its own. -/
theorem head?_insertedText {rs : List Replacement} (hne : rs ≠ []) (indent : String)
    (wrapped : Bool) : (insertedText rs indent wrapped).toList.head? = some '\n' := by
  obtain ⟨r, rs, rfl⟩ := List.exists_cons_of_ne_nil hne
  simp [insertedText]

theorem op?_functionLexemes (rs : List Replacement) : ∀ l ∈ functionLexemes rs, l.op? = none := by
  intro l hl
  obtain ⟨r, -, hl⟩ := List.mem_flatMap.1 hl
  exact r.function.op?_form l hl

/-- No index stands where the text of a function begins. -/
theorem head?_functionLexemes {rs : List Replacement} (hne : rs ≠ []) :
    (functionLexemes rs).head? = some Form.opening := by
  obtain ⟨r, rs, rfl⟩ := List.exists_cons_of_ne_nil hne
  simp [functionLexemes, Function.form, Form.lexemes_headed]

/-- A module cut at its anchor, and the lexemes of the text that goes in there. -/
structure Splice (rs : List Replacement) (source : String) (ts : List Token) (layout : Layout)
    (inserted : String) (front block back : List Lexeme) : Prop where
  tokens : ts = Token.placeAll 0 .start (front ++ back)
  chars_eq : chars (front ++ back) = source.toList
  tiles_source : Tiles (front ++ back) []
  anchor : layout.anchor = byteSize (chars front)
  apart : Apart front back
  chars_block : chars block = inserted.toList
  significant_block : significant block = functionLexemes rs
  tiles_block : ∀ rest, Tiles block rest

namespace Splice

/-- Every module whose layout is known can be cut. -/
theorem exists_of_layout {rs : List Replacement} (hrs : ∀ r ∈ rs, r.function.isWritable = true)
    {indent : String} (hindent : Config.isIndent indent = true) {source : String} {ts : List Token}
    {layout : Layout} (htokens : tokenize source = .ok ts) (hlayout : Layout.ofTokens ts = .ok layout) :
    ∃ front block back,
      Splice rs source ts layout (insertedText rs indent layout.wrapped) front block back := by
  obtain ⟨ls, rfl, hchars, htiles⟩ := tiles_of_tokenize htokens
  obtain ⟨front, back, rfl, hanchor, hapart⟩ := Layout.exists_apart hlayout
  obtain ⟨block, hblock, hsignificant, hstands⟩ := reads_insertedText hrs hindent layout.wrapped
  exact ⟨front, block, back, rfl, hchars, htiles, hanchor, hapart, hblock, hsignificant,
    fun rest => hstands rest trivial⟩

variable {rs : List Replacement} {source inserted indent : String} {ts : List Token}
  {layout : Layout} {front block back : List Lexeme}

/-- No instruction stands in the functions. -/
theorem op?_block (s : Splice rs source ts layout inserted front block back) :
    ∀ l ∈ block, l.op? = none := by
  intro l hl
  cases hmeaning : l.isTrivia with
  | true => exact op?_of_trivia hmeaning
  | false =>
    have hmem : l ∈ significant block := List.mem_filter.2 ⟨hl, by simp [hmeaning]⟩
    rw [s.significant_block] at hmem
    exact op?_functionLexemes rs l hmem

theorem replacement?_block (s : Splice rs source ts layout inserted front block back) :
    ∀ l ∈ block, l.replacement? rs = none := by
  intro l hl
  rw [replacement?_eq, s.op?_block l hl]
  rfl

/-- The lexemes of the enlarged module. -/
theorem tiles (s : Splice rs source ts layout inserted front block back)
    (hline : inserted.toList.head? = some '\n') : Tiles (front ++ (block ++ back)) [] := by
  obtain ⟨hfront, hback⟩ := Tiles.append_iff.1 s.tiles_source
  obtain ⟨cs, hcs⟩ : ∃ cs, chars block = '\n' :: cs := by
    rw [s.chars_block]
    exact List.head?_eq_some_iff.1 hline
  refine Tiles.append_iff.2 ⟨?_, Tiles.append_iff.2 ⟨s.tiles_block _, hback⟩⟩
  rw [chars_append, hcs]
  exact hfront.before_newline _

theorem stopsIndices (s : Splice rs source ts layout inserted front block back) (hne : rs ≠ []) :
    StopsIndices id (block ++ back) := by
  intro l hl
  have hhead : (meaningful id (block ++ back)).head? = some Form.opening := by
    have hblock : meaningful id block = functionLexemes rs := s.significant_block
    rw [meaningful_append, hblock, List.head?_append, head?_functionLexemes hne]
    rfl
  rw [hhead] at hl
  obtain rfl : Form.opening = l := by simpa using hl
  exact ⟨by decide, by decide⟩

/-- The exchange leaves the functions alone and deals with the two parts on their own. -/
theorem exchanged_eq (s : Splice rs source ts layout inserted front block back) (hne : rs ≠ []) :
    exchanged rs (front ++ (block ++ back)) =
      exchanged rs front ++ (block ++ exchanged rs back) := by
  rw [exchanged_append_of_stops (s.stopsIndices hne),
    exchanged_append_of_none s.replacement?_block]

open Occurrence

theorem allIn_eq (s : Splice rs source ts layout inserted front block back) :
    allIn rs ts = allIn rs (Token.placeAll 0 .start front) ++
      allIn rs (Token.placeAll layout.anchor (Position.start.after (chars front)) back) := by
  have hsplit := allIn_placeAll_append 0 .start rs s.apart
  rwa [← s.tokens, Nat.zero_add, ← s.anchor] at hsplit

/-- What is refused in the module is refused in its front part, or else behind it. -/
theorem refused?_source (s : Splice rs source ts layout inserted front block back) :
    refused? rs ts = (refused? rs (Token.placeAll 0 .start front)).or
      (refused? rs (Token.placeAll layout.anchor (Position.start.after (chars front)) back)) := by
  rw [s.anchor, s.tokens, refused?_placeAll_append 0 .start rs s.apart, Nat.zero_add]

/-- In the enlarged module the functions have moved the part behind them, and nothing else is new. -/
theorem refused?_enlarged (s : Splice rs source ts layout inserted front block back) (hne : rs ≠ []) :
    refused? rs (Token.placeAll 0 .start (front ++ (block ++ back))) =
      (refused? rs (Token.placeAll 0 .start front)).or
        (refused? rs (Token.placeAll (layout.anchor + byteSize inserted.toList)
          ((Position.start.after (chars front)).after inserted.toList) back)) := by
  have hblock := replacement?_placeAll s.replacement?_block (0 + byteSize (chars front))
    (Position.start.after (chars front))
  rw [refused?_placeAll_append 0 .start rs
      (show Apart front (block ++ back) from .inr (s.stopsIndices hne)),
    Token.placeAll_append _ _ block, refused?_append_of_none hblock, s.anchor, s.chars_block,
    Nat.zero_add]

/-- What is refused in the enlarged module is what is refused in the old one, at another place
perhaps. -/
theorem refused?_eq (s : Splice rs source ts layout inserted front block back) (hne : rs ≠ []) :
    (refused? rs (Token.placeAll 0 .start (front ++ (block ++ back)))).map PassError.unplaced =
      (refused? rs ts).map PassError.unplaced := by
  rw [s.refused?_enlarged hne, s.refused?_source, Option.map_or, Option.map_or]
  exact congrArg _ (refused?_congr rs (by simp))

/-- An instruction is refused in the enlarged module if and only if it is in the old one. -/
theorem refused?_eq_none_iff (s : Splice rs source ts layout inserted front block back)
    (hne : rs ≠ []) :
    refused? rs (Token.placeAll 0 .start (front ++ (block ++ back))) = none ↔
      refused? rs ts = none := by
  have hsame := s.refused?_eq hne
  constructor
  · intro h
    rwa [h, Option.map_none, eq_comm, Option.map_eq_none_iff] at hsame
  · intro h
    rwa [h, Option.map_none, Option.map_eq_none_iff] at hsame

/-- As many instructions are exchanged in the enlarged module as stand in the old one. -/
theorem countP_allIn_eq (s : Splice rs source ts layout inserted front block back) (op : Op) :
    (allIn rs (Token.placeAll 0 .start (front ++ (block ++ back)))).countP (·.op = op) =
      ts.countP fun t => (t.replacement? rs).map Replacement.op = some op := by
  have hblock : block.countP (fun l => (l.replacement? rs).map Replacement.op = some op) = 0 := by
    refine List.countP_eq_zero.2 fun l hl => ?_
    simp [s.replacement?_block l hl]
  rw [countP_allIn_placeAll, s.tokens, ← countP_allIn, countP_allIn_placeAll, List.countP_append,
    List.countP_append, List.countP_append, hblock, Nat.zero_add]

/-- The functions go in at the anchor. -/
theorem inject?_eq (s : Splice rs source ts layout (insertedText rs indent layout.wrapped)
    front block back) (hne : rs ≠ []) :
    inject? source layout rs indent = some (String.ofList (chars (front ++ (block ++ back)))) := by
  have hempty : rs.isEmpty = false := by simpa using hne
  have hedit := Edit.applyFrom?_cons_append 0 (chars front) [] (chars back)
    (insertedText rs indent layout.wrapped) []
  simp only [Nat.zero_add, byteSize_nil, Nat.add_zero, List.nil_append, Edit.applyFrom?_nil,
    Option.map_some, ← chars_append, s.chars_eq, ← s.anchor, ← s.chars_block,
    List.append_assoc] at hedit
  rw [inject?, hempty, Edit.applyAll?]
  exact congrArg (Option.map String.ofList) hedit

/-- What the replacement of all instructions yields, unless one is refused. -/
theorem replaceAll_eq {config : Config} {detection : Detection}
    (hrs : rs = Replacement.forDetection detection config layout.functionNames)
    (s : Splice rs source ts layout (insertedText rs config.indent layout.wrapped) front block back)
    (hne : rs ≠ []) :
    Pass.replaceAll config source layout detection =
      match refused? rs (Token.placeAll 0 .start (front ++ (block ++ back))) with
      | some e => .error e
      | none => .ok {
          output := String.ofList (chars (exchanged rs front ++ (block ++ exchanged rs back)))
          detection
          injected := rs.map Replacement.name
          copiesReplaced := ts.countP fun t => (t.replacement? rs).map Replacement.op = some .copy
          fillsReplaced := ts.countP fun t => (t.replacement? rs).map Replacement.op = some .fill } := by
  have hexchange := exchangeAll_eq rs (s.tiles (head?_insertedText hne _ _))
  rw [s.countP_allIn_eq, s.countP_allIn_eq, s.exchanged_eq hne] at hexchange
  rw [Pass.replaceAll, ← hrs, s.inject?_eq hne]
  simp only [hexchange]
  cases refused? rs (Token.placeAll 0 .start (front ++ (block ++ back))) <;> rfl

end Splice

end BulkMemory
