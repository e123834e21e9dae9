import BulkMemory.Proofs.Layout.Forest
import BulkMemory.Proofs.Pass.Output

/-!
# The forest of the output

The anchor cuts the lexemes of a module where a forest takes new forms (`Form.exists_grown`), so the
output reads as the forest of the module with calls in place and the functions added as its last
fields (`Pass.Replaced.exists_forests`).
-/

namespace BulkMemory
set_option autoImplicit false

open Lexeme

/-- The forms of the functions, in the order of insertion. -/
def functionForms (rs : List Replacement) : List Form := rs.map fun r => r.function.form

theorem lexemesAll_functionForms (rs : List Replacement) :
    Form.lexemesAll (functionForms rs) = functionLexemes rs := by
  induction rs with
  | nil => rfl
  | cons r rs ih => exact congrArg (r.function.form.lexemes ++ ·) ih

/-- A function is a field, and it takes up a function index. -/
structure Form.IsFunctionField (f : Form) : Prop where
  group : f.isGroup = true
  not_module : f.isModule = false
  function : f.isFunction = true
  index : f.hasFunctionIndex = true

theorem isFunctionField_of_mem {rs : List Replacement} :
    ∀ f ∈ functionForms rs, f.IsFunctionField := by
  intro f hf
  obtain ⟨r, -, rfl⟩ := List.mem_map.1 hf
  exact ⟨rfl, rfl, rfl, rfl⟩

theorem any_isModule_functionForms (rs : List Replacement) :
    (functionForms rs).any Form.isModule = false :=
  List.any_eq_false.2 fun f hf => by simp [(isFunctionField_of_mem f hf).not_module]

/-- The text of a replacement is balanced. -/
theorem Replacement.isProper_named (op : Op) (name : String) :
    (named op name).function.form.isProper = true := by
  cases op <;> rfl

namespace Form

variable {rs : List Replacement}

/-- Calls on both sides of the place for new forms, and the new forms between them, are the lexemes of
a forest that has grown. -/
theorem exists_grown {wrapped : Bool} {before items behind new : List Form} {front back : List Lexeme}
    (hhosts : Hosts wrapped before items behind)
    (hproper : areProper (before ++ group items :: behind) = true) (hnew : areProper new = true)
    (hwrapped : wrapped = true → front = lexemesAll before ++ opening :: lexemesAll items ∧
      back = closing :: lexemesAll behind)
    (hbare : wrapped = false → front = lexemesAll (before ++ [group items]) ∧
      back = lexemesAll behind) :
    ∃ forest', areProper forest' = true ∧
      Grown new wrapped (callsAll rs (before ++ group items :: behind)) forest' ∧
      lexemesAll forest' = calls rs front ++ (lexemesAll new ++ calls rs back) := by
  have hparts : areProper before = true ∧ areProper items = true ∧ areProper behind = true := by
    simpa [areProper, isProper] using hproper
  have hcalls := hhosts.callsAll rs
  rw [callsAll_append_group hproper]
  cases wrapped with
  | true =>
    obtain ⟨rfl, rfl⟩ := hwrapped rfl
    refine ⟨_, ?_, .inModule hcalls, ?_⟩
    · simp [areProper, isProper, areProper_callsAll, hparts, hnew]
    · rw [calls_append_paren (by decide), calls_cons_of_none (replacement?_of_not_keyword (by decide))]
      simp [lexemesAll, lexemes, lexemesAll_callsAll]
  | false =>
    obtain ⟨rfl, rfl⟩ := hbare rfl
    have hfront : callsAll rs (before ++ [group items]) =
        callsAll rs before ++ [group (callsAll rs items)] :=
      callsAll_append_group (by simp [areProper, isProper, hparts])
    refine ⟨_, ?_, .behindLast hcalls, ?_⟩
    · simp [areProper, isProper, areProper_callsAll, hparts, hnew]
    · rw [← lexemesAll_callsAll, hfront, ← lexemesAll_callsAll]
      simp [lexemesAll]

end Form

namespace Pass.Replaced

variable {config : Config} {source : String} {o : Outcome} {ts : List Token} {layout : Layout}
  {rs : List Replacement} {front block back : List Lexeme}

/-- The functions are balanced forms. -/
theorem areProper_functionForms (hconfig : config.check = .ok ())
    (p : Replaced config source o ts layout rs front block back) :
    Form.areProper (functionForms rs) = true := by
  refine Form.areProper_of_forall fun f hf => ?_
  obtain ⟨r, hr, rfl⟩ := List.mem_map.1 hf
  obtain ⟨op, name, rfl, -⟩ := p.exists_named hconfig r hr
  exact Replacement.isProper_named op name

/-- In the module every parenthesis is written in the one way there is. -/
theorem parens (p : Replaced config source o ts layout rs front block back) :
    ∀ t ∈ Token.significant ts, (t.kind = .leftParen → t.toLexeme = Form.opening) ∧
      (t.kind = .rightParen → t.toLexeme = Form.closing) := by
  rw [p.tokens]
  exact Layout.parens_placeAll p.tiles_source 0 .start

/-- The anchor cuts the forest of the module where new fields go. -/
theorem exists_hosts (p : Replaced config source o ts layout rs front block back) :
    ∃ before items behind, Form.Hosts layout.wrapped before items behind ∧
      Form.areProper (before ++ .group items :: behind) = true ∧
      Token.meaning ts = Form.lexemesAll (before ++ .group items :: behind) ∧
      (layout.wrapped = true →
        significant front = Form.lexemesAll before ++ Form.opening :: Form.lexemesAll items ∧
          significant back = Form.closing :: Form.lexemesAll behind) ∧
      (layout.wrapped = false →
        significant front = Form.lexemesAll (before ++ [.group items]) ∧
          significant back = Form.lexemesAll behind) := by
  obtain ⟨before, items, behind, us, opens, vs, closes, ws, hhosts, hspells, hanchor⟩ :=
    Layout.exists_host p.parens p.analysed
  have hmeaning := hspells.meaning_eq
  rw [p.tokens] at hspells
  rw [p.anchor] at hanchor
  obtain ⟨hwrapped, hbare⟩ := Layout.significant_parts p.tiles_source.size_pos hspells hanchor
  exact ⟨before, items, behind, hhosts, hspells.proper, hmeaning, hwrapped, hbare⟩

theorem meaning_tokens (p : Replaced config source o ts layout rs front block back) :
    Token.meaning ts = significant front ++ significant back := by
  rw [p.tokens, Token.meaning, Token.map_significant_placeAll, significant_append]

/-- The lexemes of the output that carry meaning. -/
theorem meaning_output (p : Replaced config source o ts layout rs front block back)
    {out : List Token} (hout : Token.significant out = Token.significant
      (Token.placeAll 0 .start (exchanged rs front ++ (block ++ exchanged rs back)))) :
    Token.meaning out =
      calls rs (significant front) ++ (functionLexemes rs ++ calls rs (significant back)) := by
  rw [Token.meaning, hout, Token.map_significant_placeAll, significant_append, significant_append,
    significant_exchanged, significant_exchanged, p.significant_block]

/-- The module and the output are forests, and that of the output has grown by the functions. -/
theorem exists_forests (hconfig : config.check = .ok ())
    (p : Replaced config source o ts layout rs front block back) {out : List Token}
    (hout : Token.significant out = Token.significant
      (Token.placeAll 0 .start (exchanged rs front ++ (block ++ exchanged rs back)))) :
    ∃ forest forest', Form.areProper forest = true ∧ Token.meaning ts = Form.lexemesAll forest ∧
      Form.areProper forest' = true ∧ Token.meaning out = Form.lexemesAll forest' ∧
      Form.Grown (functionForms rs) layout.wrapped (Form.callsAll rs forest) forest' := by
  obtain ⟨before, items, behind, hhosts, hproper, hmeaning, hwrapped, hbare⟩ := p.exists_hosts
  obtain ⟨forest', hproper', hgrown, hlexemes⟩ :=
    Form.exists_grown hhosts hproper (p.areProper_functionForms hconfig) hwrapped hbare
  refine ⟨_, forest', hproper, hmeaning, hproper', ?_, hgrown⟩
  rw [p.meaning_output hout, hlexemes, lexemesAll_functionForms]

/-- The output has a layout, with the same place for new fields. -/
theorem exists_layout {out : List Token} {forest forest' : List Form}
    (hproper : Form.areProper forest' = true) (hmeaning : Token.meaning out = Form.lexemesAll forest')
    (hgrown : Form.Grown (functionForms rs) layout.wrapped (Form.callsAll rs forest) forest') :
    ∃ layout', Layout.ofTokens out = .ok layout' ∧ layout'.wrapped = layout.wrapped := by
  obtain ⟨layout', hlayout, hwrapped⟩ :=
    Layout.ofTokens_of_forest hproper hmeaning hgrown.any_isGroup
  exact ⟨layout', hlayout, hwrapped.trans (hgrown.any_isModule (any_isModule_functionForms rs))⟩

end Pass.Replaced

/-! ### Fields -/

namespace Form.Grown

variable {rs : List Replacement} {wrapped : Bool} {forest forest' : List Form}

/-- The fields of the output are those of the module with calls in place, and the functions. -/
theorem fields_functionForms (h : Grown (functionForms rs) wrapped (callsAll rs forest) forest') :
    Form.fields forest' = (Form.fields forest).map (withCalls rs) ++ functionForms rs := by
  rw [h.fields (fun f hf => (isFunctionField_of_mem f hf).group) (any_isModule_functionForms rs),
    fields_callsAll]

/-- Among the fields that pass a test, as functions and calls do not matter to it, the functions come
last too. -/
theorem filter_fields (h : Grown (functionForms rs) wrapped (callsAll rs forest) forest')
    {test : Form → Bool} (hcalls : ∀ f : Form, test (f.withCalls rs) = test f)
    (hnew : ∀ f ∈ functionForms rs, test f = true) :
    (Form.fields forest').filter test =
      ((Form.fields forest).filter test).map (withCalls rs) ++ functionForms rs := by
  have htest : test ∘ withCalls rs = test := funext hcalls
  rw [h.fields_functionForms, List.filter_append, List.filter_map, htest,
    List.filter_eq_self.2 hnew]

end Form.Grown

end BulkMemory
