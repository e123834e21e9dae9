import BulkMemory.Proofs.Pass.Run

/-!
# The output of a run

`Edited` describes the output in offsets of the old module: each instruction, with the indices that it
takes, has become a call, and the functions stand at the anchor. `Relexed` says what the lexer finds
in the output: the lexemes of the old module with the calls in place, and between them those of the
functions.
-/

namespace BulkMemory.Pass
set_option autoImplicit false

open Lexeme

/-- What the lexer finds in the output of a run. The tokens of the module fall into those in front of
the anchor and those behind it. -/
structure Relexed (config : Config) (o : Outcome) (ts : List Token) (layout : Layout)
    (rs : List Replacement) (before after out : List Token) : Prop where
  functions : rs = Replacement.forDetection o.detection config layout.functionNames
  cut : ts = before ++ after
  before_anchor : ∀ t ∈ before, t.stop ≤ layout.anchor
  behind_anchor : ∀ t ∈ after, layout.anchor ≤ t.start
  tokenized : tokenize o.output = .ok out
  meaning : Token.meaning out =
    calls rs (Token.meaning before) ++ (functionLexemes rs ++ calls rs (Token.meaning after))
  /-- No instruction in front of the anchor takes an index from behind it. -/
  calls_append : calls rs (Token.meaning ts) =
    calls rs (Token.meaning before) ++ calls rs (Token.meaning after)
  /-- The instructions, and they alone, become calls of the functions of their kinds. -/
  replaced : ∀ t ∈ ts, (t.replacement? rs).map Replacement.op = t.op?
  /-- The text of each function falls into its lexemes. -/
  rendered : ∀ r ∈ rs, ∃ fs,
    tokenize (r.render config.indent layout.wrapped.toNat) = .ok fs ∧
      Token.meaning fs = r.function.form.lexemes

namespace Replaced

variable {config : Config} {source : String} {o : Outcome} {ts : List Token} {layout : Layout}
  {rs : List Replacement} {front block back : List Lexeme}

theorem op_replacement? (p : Replaced config source o ts layout rs front block back) :
    ∀ t ∈ ts, (t.replacement? rs).map Replacement.op = t.op? := by
  intro t ht
  rw [p.functions, p.detected]
  exact Replacement.op_replacement? ht config layout.functionNames

theorem exists_named (hconfig : config.check = .ok ())
    (p : Replaced config source o ts layout rs front block back) :
    ∀ r ∈ rs, ∃ op name, r = Replacement.named op name ∧ isIdentifier name = true := by
  intro r hr
  rw [p.functions] at hr
  exact Replacement.exists_named_of_mem_forOps hconfig hr

theorem isIdentifier_name (hconfig : config.check = .ok ())
    (p : Replaced config source o ts layout rs front block back) :
    ∀ r ∈ rs, isIdentifier r.name = true := by
  intro r hr
  obtain ⟨op, name, rfl, hname⟩ := p.exists_named hconfig r hr
  simpa using hname

theorem tiles_enlarged (p : Replaced config source o ts layout rs front block back) :
    Tiles (front ++ (block ++ back)) [] := p.tiles (head?_insertedText p.nonempty _ _)

/-- The output falls into the old lexemes with the calls in place and those of the functions. -/
theorem tiles_output (hconfig : config.check = .ok ())
    (p : Replaced config source o ts layout rs front block back) :
    Tiles (exchanged rs front ++ (block ++ exchanged rs back)) [] := by
  rw [← p.exchanged_eq p.nonempty]
  exact p.tiles_enlarged.exchanged (p.isIdentifier_name hconfig)

theorem kinds (p : Replaced config source o ts layout rs front block back) :
    rs.map Replacement.op = o.detection.ops := by
  rw [p.functions, Replacement.map_op_forDetection]

/-- A count of the instructions that have a replacement is one of all instructions. -/
theorem countP_op? (p : Replaced config source o ts layout rs front block back) (op : Op) :
    (ts.countP fun t => (t.replacement? rs).map Replacement.op = some op) =
      ts.countP fun t => t.op? = some op :=
  List.countP_congr fun t ht => by rw [p.op_replacement? t ht]

end Replaced

variable {config : Config} {source : String} {o : Outcome}

/-- The lexer finds the lexemes of the module in the output, with the calls in place, and those of
the functions between them. -/
theorem run_relexed (hconfig : config.check = .ok ()) (hrun : run config source = .ok o)
    (hfound : o.isNoop = false) :
    ∃ ts layout rs before after out,
      tokenize source = .ok ts ∧ Layout.ofTokens ts = .ok layout ∧
        Relexed config o ts layout rs before after out := by
  obtain ⟨ts, layout, rs, front, block, back, p⟩ := exists_replaced hconfig hrun hfound
  obtain ⟨out, hout, hsame⟩ := tokenize_of_tiles (p.tiles_output hconfig)
  have hcut : ts = Token.placeAll 0 .start front ++
      Token.placeAll layout.anchor (Position.start.after (chars front)) back := by
    rw [p.tokens, Token.placeAll_append, Nat.zero_add, ← p.anchor]
  have hmeaning (start : Nat) (position : Position) (ls : List Lexeme) :
      calls rs (Token.meaning (Token.placeAll start position ls)) =
        significant (exchanged rs ls) := by
    rw [significant_exchanged, Token.meaning, Token.map_significant_placeAll]
  refine ⟨ts, layout, rs, _, _, out, p.tokenized, p.analysed, {
    functions := p.functions
    cut := hcut
    before_anchor := fun t ht => ?_
    behind_anchor := fun t ht => (Token.within_of_mem_placeAll ht).1
    tokenized := by rw [p.output, hout]
    meaning := ?_
    calls_append := ?_
    replaced := p.op_replacement?
    rendered := fun r hr => ?_ }⟩
  · have hstop := (Token.within_of_mem_placeAll ht).2
    rwa [Nat.zero_add, ← p.anchor] at hstop
  · rw [hmeaning, hmeaning, Token.meaning, hsame, Token.map_significant_placeAll,
      significant_append, significant_append, p.significant_block]
  · rw [hmeaning, hmeaning, p.tokens, hmeaning, p.apart.exchanged_append, significant_append]
  · rw [p.functions] at hr
    exact (Function.reads_render (functions_isWritable hconfig r hr)
      (config.isIndent_indent hconfig) _).tokenize (by simp [EndsLine])

theorem run_relexed_copy :
    ∃ o, run {} "(module(func memory.copy 0(;;)0x0))" = .ok o ∧ o.isNoop = false ∧
      ∃ ts layout rs before after out,
        tokenize "(module(func memory.copy 0(;;)0x0))" = .ok ts ∧
          Layout.ofTokens ts = .ok layout ∧ Relexed {} o ts layout rs before after out := by
  obtain ⟨o, hrun, hfound⟩ := exists_run_copy
  exact ⟨o, hrun, hfound, run_relexed rfl hrun hfound⟩

end BulkMemory.Pass
