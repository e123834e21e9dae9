import BulkMemory.Proofs.Pass.Places

/-!
# A run keeps the nesting

A token that no instruction takes is found again in the output, and as many groups are open around it
(`Pass.Stays`). The forest of the output is that of the module with
calls in place and the functions as its last fields, so the fields of the module keep their order and
its functions their indices (`Pass.Nested`).
-/

namespace BulkMemory.Pass
set_option autoImplicit false

open Lexeme

/-- A token of the module that stands at the given place of the output. -/
structure Stays (o : Outcome) (ts out : List Token) (t : Token) (place : Nat) : Prop where
  text : ∃ front back, splitAt? place o.output.toList = some (front, t.text.toList ++ back)
  /-- As many groups are open in front of it as in the module. -/
  depth : Token.depthAt out place = Token.depthAt ts t.start
  /-- The lexer finds it there, if it carries meaning. -/
  token : t.isTrivia = false → ∃ u ∈ out, u.toLexeme = t.toLexeme ∧ u.start = place

/-- What a run does to the groups of a module. -/
structure Nested (config : Config) (o : Outcome) (ts out : List Token) (layout layout' : Layout)
    (rs : List Replacement) (instructions : List Occurrence) (forest forest' : List Form) :
    Prop where
  functions : rs = Replacement.forDetection o.detection config layout.functionNames
  found : Occurrence.inTokens rs ts = .ok instructions
  tokenized : tokenize o.output = .ok out
  analysed : Layout.ofTokens out = .ok layout'
  wrapped : layout'.wrapped = layout.wrapped
  /-- A token that no instruction takes stays, and as deep as it was. -/
  stays : ∀ before t after, ts = before ++ t :: after → (∀ i ∈ instructions, ¬ i.Takes t) →
    Stays o ts out t (newPlace config layout rs before t)
  read : Form.ofLexemes? (Token.meaning ts) = some forest
  read_output : Form.ofLexemes? (Token.meaning out) = some forest'
  /-- The functions are the last items of the first module form, or they stand directly behind the
  last group of a module without such a form. -/
  grown : Form.Grown (functionForms rs) layout.wrapped (Form.callsAll rs forest) forest'
  /-- The fields of the module keep their order, and the functions come behind all of them. -/
  fields : Form.fields forest' = (Form.fields forest).map (Form.withCalls rs) ++ functionForms rs
  function_fields : (Form.fields forest').filter Form.isFunction =
    ((Form.fields forest).filter Form.isFunction).map (Form.withCalls rs) ++ functionForms rs
  /-- Every function keeps its index, be it an import. -/
  indices : ∀ (i : Nat) (f : Form),
    ((Form.fields forest).filter Form.hasFunctionIndex)[i]? = some f →
      ((Form.fields forest').filter Form.hasFunctionIndex)[i]? = some (f.withCalls rs)

namespace Replaced

variable {config : Config} {source : String} {o : Outcome} {ts : List Token} {layout : Layout}
  {rs : List Replacement} {front block back : List Lexeme}

/-- A token that no instruction takes stays. -/
theorem stays (hconfig : config.check = .ok ())
    (p : Replaced config source o ts layout rs front block back) {out : List Token}
    (hout : Token.significant out = Token.significant
      (Token.placeAll 0 .start (exchanged rs front ++ (block ++ exchanged rs back))))
    {before after : List Token} {t : Token} (hsplit : ts = before ++ t :: after)
    (hfree : ∀ i ∈ Occurrence.allIn rs ts, ¬ i.Takes t) :
    Stays o ts out t (newPlace config layout rs before t) := by
  obtain ⟨hall, hstart⟩ := Token.of_placeAll_eq_append (p.tokens.symm.trans hsplit)
  have hnone : t.replacement? rs = none := by
    cases hr : t.replacement? rs with
    | none => rfl
    | some r =>
      obtain ⟨i, hi, hbegin, hend⟩ := exists_mem_allIn hr (before.map Token.toLexeme)
        (after.map Token.toLexeme) 0 .start
      rw [← hall, ← p.tokens] at hi
      rw [Nat.zero_add, ← hstart] at hbegin hend
      exact absurd ⟨Nat.le_of_eq hbegin, hend⟩ (hfree i hi)
  obtain ⟨as, rest, bs, hlexemes, hplace, hnesting⟩ := p.exists_place hconfig hsplit fun _ => hfree
  rw [exchanged_cons_of_none hnone, List.cons_append] at hlexemes
  generalize exchanged rs rest ++ bs = bs at hlexemes
  have hsource := p.tiles_source.size_pos
  have houtput := (p.tiles_output hconfig).size_pos
  rw [hall] at hsource
  rw [hlexemes] at hout houtput
  refine ⟨⟨chars as, chars bs, ?_⟩, ?_, fun hmeaning => ?_⟩
  · rw [← hplace, p.output, hlexemes, String.toList_ofList, chars_append, chars_cons]
    exact splitAt?_append (chars as) _
  · calc Token.depthAt out (newPlace config layout rs before t)
        = Token.depthAt (Token.placeAll 0 .start (as ++ t.toLexeme :: bs)) (byteSize (chars as)) := by
          rw [← hplace, ← Token.depthAt_significant, hout, Token.depthAt_significant]
      _ = nesting as := Token.depthAt_placeAll houtput .start
      _ = nesting (before.map Token.toLexeme) := hnesting
      _ = Token.depthAt ts t.start := by
          rw [p.tokens, hall, hstart, Token.depthAt_placeAll hsource .start]
  · have hmem : (⟨t.toLexeme, byteSize (chars as), Position.start.after (chars as)⟩ : Token) ∈
        Token.significant (Token.placeAll 0 .start (as ++ t.toLexeme :: bs)) := by
      rw [Token.placeAll_append, Token.placeAll, Nat.zero_add]
      exact List.mem_filter.2 ⟨by simp, by simpa using hmeaning⟩
    rw [← hout] at hmem
    exact ⟨_, (List.mem_filter.1 hmem).1, rfl, hplace⟩

end Replaced

variable {config : Config} {source : String} {o : Outcome}

/-- A run keeps every group of a module, and adds the functions behind its fields. -/
theorem run_nested (hconfig : config.check = .ok ()) (hrun : run config source = .ok o)
    (hfound : o.isNoop = false) :
    ∃ ts out layout layout' rs instructions forest forest',
      tokenize source = .ok ts ∧ Layout.ofTokens ts = .ok layout ∧
        Nested config o ts out layout layout' rs instructions forest forest' := by
  obtain ⟨ts, layout, rs, front, block, back, p⟩ := exists_replaced hconfig hrun hfound
  obtain ⟨out, hout, hsame⟩ := tokenize_of_tiles (p.tiles_output hconfig)
  obtain ⟨forest, forest', hproper, hmeaning, hproper', hmeaning', hgrown⟩ :=
    p.exists_forests hconfig hsame
  obtain ⟨layout', hlayout, hwrapped⟩ := Replaced.exists_layout hproper' hmeaning' hgrown
  have hindices := hgrown.filter_fields Form.hasFunctionIndex_withCalls
    fun f hf => (isFunctionField_of_mem f hf).index
  refine ⟨ts, out, layout, layout', rs, Occurrence.allIn rs ts, forest, forest', p.tokenized,
    p.analysed, {
    functions := p.functions
    found := by rw [Occurrence.inTokens_eq, p.accepted]
    tokenized := by rw [p.output, hout]
    analysed := hlayout
    wrapped := hwrapped
    stays := fun before t after hsplit hfree => p.stays hconfig hsame hsplit hfree
    read := by rw [hmeaning, Form.ofLexemes?_lexemesAll hproper]
    read_output := by rw [hmeaning', Form.ofLexemes?_lexemesAll hproper']
    grown := hgrown
    fields := hgrown.fields_functionForms
    function_fields := hgrown.filter_fields Form.isFunction_withCalls
      fun f hf => (isFunctionField_of_mem f hf).function
    indices := fun i f hf => ?_ }⟩
  have hlt : i < ((Form.fields forest).filter Form.hasFunctionIndex).length :=
    (List.getElem?_eq_some_iff.1 hf).1
  rw [hindices, List.getElem?_append_left (by simpa using hlt), List.getElem?_map, hf]
  rfl

theorem run_nested_copy :
    ∃ o, run {} "(module(func memory.copy 0(;;)0x0))" = .ok o ∧ o.isNoop = false ∧
      ∃ ts out layout layout' rs instructions forest forest',
        tokenize "(module(func memory.copy 0(;;)0x0))" = .ok ts ∧
          Layout.ofTokens ts = .ok layout ∧
            Nested {} o ts out layout layout' rs instructions forest forest' := by
  obtain ⟨o, hrun, hfound⟩ := exists_run_copy
  exact ⟨o, hrun, hfound, run_nested rfl hrun hfound⟩

end BulkMemory.Pass
