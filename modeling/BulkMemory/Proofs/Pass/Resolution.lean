import BulkMemory.Proofs.Layout.Names
import BulkMemory.Proofs.Pass.Places
import BulkMemory.Proofs.Replacement.Fresh

/-!
# Every call finds its function

The output names the functions of the module and the inserted ones, which have new names
(`Pass.Replaced.functionNames_output`), and an instruction has become a call of the one inserted
function that does the same (`Pass.Replaced.calls`). `Pass.Resolved` puts the two together.
-/

namespace BulkMemory.Pass
set_option autoImplicit false

open Lexeme

theorem functionNames_functionLexemes (rs : List Replacement) (ls : List Lexeme) :
    functionNames (functionLexemes rs ++ ls) = rs.map Replacement.target ++ functionNames ls := by
  induction rs with
  | nil => rfl
  | cons r rs ih =>
    have hcons : functionLexemes (r :: rs) ++ ls =
        r.function.form.lexemes ++ (functionLexemes rs ++ ls) := by
      rw [functionLexemes, List.flatMap_cons, List.append_assoc]
      rfl
    rw [hcons, Function.functionNames_form, ih]
    rfl

/-- A call of an inserted function at the given place of the output. -/
structure Calls (o : Outcome) (out : List Token) (r : Replacement) (place : Nat) : Prop where
  text : ∃ front back, splitAt? place o.output.toList =
    some (front, ("call " ++ identifier r.name).toList ++ back)
  /-- The lexer finds the call there. -/
  tokens : ∃ us call name vs, Token.significant out = us ++ call :: name :: vs ∧
    call.start = place ∧ call.toLexeme = ⟨.keyword, "call"⟩ ∧
      name.toLexeme = ⟨.id, identifier r.name⟩

/-- What a run does to the names of functions. -/
structure Resolved (config : Config) (o : Outcome) (ts out : List Token) (layout layout' : Layout)
    (rs : List Replacement) (forest' : List Form) : Prop where
  functions : rs = Replacement.forDetection o.detection config layout.functionNames
  injected : o.injected = rs.map Replacement.name
  /-- There is one function for each kind of instruction, that for copies first. -/
  kinds : rs.map Replacement.op = o.detection.ops
  detected : ∀ op, o.detection.has op = true ↔ ∃ t ∈ ts, t.op? = some op
  tokenized : tokenize o.output = .ok out
  analysed : Layout.ofTokens out = .ok layout'
  /-- The output names the functions of the module and the inserted ones. -/
  names : ∀ id, id ∈ layout'.functionNames ↔
    id ∈ layout.functionNames ∨ ∃ n ∈ o.injected, id = identifier n
  /-- No function of the module has the name of an inserted one. -/
  fresh : ∀ n ∈ o.injected, identifier n ∉ layout.functionNames
  distinct : o.injected.Nodup
  /-- An inserted function has one header in the output. -/
  headers : ∀ n ∈ o.injected,
    (Layout.namedFunctions (Token.significant out)).count (identifier n) = 1
  read_output : Form.ofLexemes? (Token.meaning out) = some forest'
  /-- The functions are fields of the output. -/
  fields : ∀ r ∈ rs, r.function.form ∈ Form.fields forest'
  /-- Every instruction has become a call of the function that does the same. -/
  calls : ∀ before t after op, ts = before ++ t :: after → t.op? = some op →
    ∃ r ∈ rs, r = Replacement.named op r.name ∧ Calls o out r (newPlace config layout rs before t)

namespace Replaced

variable {config : Config} {source : String} {o : Outcome} {ts out : List Token} {layout : Layout}
  {rs : List Replacement} {front block back : List Lexeme}

/-! ### The names of the functions -/

theorem target_not_mem (p : Replaced config source o ts layout rs front block back) :
    ∀ r ∈ rs, r.target ∉ layout.functionNames := by
  rw [p.functions]
  exact Replacement.target_not_mem

theorem nodup_targets (p : Replaced config source o ts layout rs front block back) :
    (rs.map Replacement.target).Nodup := by
  rw [p.functions]
  exact Replacement.nodup_targets config layout.functionNames o.detection.ops

/-- At the anchor a parenthesis closes a group. -/
theorem closes_at_anchor (p : Replaced config source o ts layout rs front block back) :
    (∃ ls, significant front = ls ++ [Form.closing]) ∨
      ∃ ls, significant back = Form.closing :: ls := by
  obtain ⟨before, items, behind, -, -, -, hwrapped, hbare⟩ := p.exists_hosts
  cases hlayout : layout.wrapped with
  | true => exact .inr ⟨_, (hwrapped hlayout).2⟩
  | false =>
    refine .inl ⟨Form.lexemesAll before ++ Form.opening :: Form.lexemesAll items, ?_⟩
    rw [(hbare hlayout).1]
    simp [Form.lexemesAll, Form.lexemes]

/-- No header of the module goes across the anchor. -/
theorem functionNames_source (p : Replaced config source o ts layout rs front block back) :
    functionNames (Token.meaning ts) =
      functionNames (significant front) ++ functionNames (significant back) := by
  rw [p.meaning_tokens]
  rcases p.closes_at_anchor with ⟨ls, hfront⟩ | ⟨ls, hback⟩
  · have hself := functionNames_append_closing ls []
    rw [functionNames, List.append_nil] at hself
    rw [hfront, List.append_assoc, List.singleton_append, functionNames_append_closing, hself]
  · rw [hback, functionNames_append_paren (by decide)]

/-- The output names the functions of the module, and the inserted ones between them. -/
theorem functionNames_output (p : Replaced config source o ts layout rs front block back)
    (hout : Token.significant out = Token.significant
      (Token.placeAll 0 .start (exchanged rs front ++ (block ++ exchanged rs back)))) :
    functionNames (Token.meaning out) =
      functionNames (significant front) ++
        (rs.map Replacement.target ++ functionNames (significant back)) := by
  obtain ⟨ls, hls⟩ := List.head?_eq_some_iff.1 (head?_functionLexemes p.nonempty)
  have hcut : functionNames (Token.meaning out) =
      functionNames (calls rs (significant front)) ++
        functionNames (functionLexemes rs ++ calls rs (significant back)) := by
    rw [p.meaning_output hout, hls, List.cons_append, functionNames_append_paren (by decide)]
  rw [hcut, functionNames_functionLexemes, functionNames_calls, functionNames_calls]

theorem mem_functionNames_iff {layout : Layout} (h : Layout.ofTokens ts = .ok layout) (id : String) :
    id ∈ layout.functionNames ↔ id ∈ functionNames (Token.meaning ts) := by
  rw [Layout.functionNames_of_ofTokens h, List.mem_eraseDups, namedFunctions_eq, Token.meaning]

/-! ### The calls -/

/-- The replacement for an instruction does the same. -/
theorem exists_replacement (hconfig : config.check = .ok ())
    (p : Replaced config source o ts layout rs front block back) {t : Token} (ht : t ∈ ts) {op : Op}
    (hop : t.op? = some op) :
    ∃ r ∈ rs, t.replacement? rs = some r ∧ r = Replacement.named op r.name := by
  have hsame := p.op_replacement? t ht
  rw [hop, Option.map_eq_some_iff] at hsame
  obtain ⟨r, hr, rfl⟩ := hsame
  have hmem := (replacement?_eq_some hr).2.1
  obtain ⟨op, name, rfl, -⟩ := p.exists_named hconfig r hmem
  exact ⟨_, hmem, hr, by rw [Replacement.op_named, Replacement.name_named]⟩

/-- An instruction has become a call, at its new place. -/
theorem calls (hconfig : config.check = .ok ())
    (p : Replaced config source o ts layout rs front block back)
    (hout : Token.significant out = Token.significant
      (Token.placeAll 0 .start (exchanged rs front ++ (block ++ exchanged rs back))))
    {before after : List Token} {t : Token} {r : Replacement} (hsplit : ts = before ++ t :: after)
    (hr : t.replacement? rs = some r) : Calls o out r (newPlace config layout rs before t) := by
  obtain ⟨as, rest, bs, hlexemes, hplace, -⟩ := p.exists_place hconfig hsplit fun hnone => by
    rw [hr] at hnone
    cases hnone
  rw [exchanged_cons_of_some hr, List.append_assoc] at hlexemes
  generalize exchanged rs (behindIndices r.op rest) ++ bs = bs at hlexemes
  rw [hlexemes] at hout
  constructor
  · refine ⟨chars as, chars bs, ?_⟩
    rw [← hplace, p.output, hlexemes, String.toList_ofList, chars_append, chars_append, chars_call]
    exact splitAt?_append (chars as) _
  · rw [hout, Token.placeAll_append, Token.placeAll_append _ _ (call r), ← hplace]
    simp only [call, Token.placeAll, Token.significant_append, Nat.zero_add]
    rw [Token.significant_cons_of_not_trivia rfl, Token.significant_cons_of_trivia rfl,
      Token.significant_cons_of_not_trivia rfl]
    exact ⟨_, _, _, _, rfl, rfl, rfl, rfl⟩

end Replaced

variable {config : Config} {source : String} {o : Outcome}

/-- The inserted functions have names of their own, and every call of one of them that stands in place
of an instruction does what the instruction does. -/
theorem run_resolved (hconfig : config.check = .ok ()) (hrun : run config source = .ok o)
    (hfound : o.isNoop = false) :
    ∃ ts out layout layout' rs forest',
      tokenize source = .ok ts ∧ Layout.ofTokens ts = .ok layout ∧
        Resolved config o ts out layout layout' rs forest' := by
  obtain ⟨ts, layout, rs, front, block, back, p⟩ := exists_replaced hconfig hrun hfound
  obtain ⟨out, hout, hsame⟩ := tokenize_of_tiles (p.tiles_output hconfig)
  obtain ⟨forest, forest', -, -, hproper, hmeaning, hgrown⟩ := p.exists_forests hconfig hsame
  obtain ⟨layout', hlayout, -⟩ := Replaced.exists_layout hproper hmeaning hgrown
  have hnames := p.functionNames_output hsame
  have htargets : rs.map Replacement.target = o.injected.map identifier := by
    rw [p.injected, List.map_map]
    rfl
  have hinjected {n : String} (hn : n ∈ o.injected) : ∃ r ∈ rs, r.target = identifier n := by
    rw [p.injected] at hn
    obtain ⟨r, hr, rfl⟩ := List.mem_map.1 hn
    exact ⟨r, hr, rfl⟩
  refine ⟨ts, out, layout, layout', rs, forest', p.tokenized, p.analysed, {
    functions := p.functions
    injected := p.injected
    kinds := p.kinds
    detected := fun op => ?_
    tokenized := by rw [p.output, hout]
    analysed := hlayout
    names := fun id => ?_
    fresh := fun n hn => ?_
    distinct := ?_
    headers := fun n hn => ?_
    read_output := by rw [hmeaning, Form.ofLexemes?_lexemesAll hproper]
    fields := fun r hr => ?_
    calls := fun before t after op hsplit hop => ?_ }⟩
  · rw [p.detected, Detection.has_scan]
    simp
  · rw [Replaced.mem_functionNames_iff hlayout, Replaced.mem_functionNames_iff p.analysed, hnames,
      p.functionNames_source, htargets, List.mem_append, List.mem_append, List.mem_append, or_assoc,
      @or_comm (id ∈ functionNames (significant back))]
    simp only [List.mem_map, eq_comm]
  · obtain ⟨r, hr, htarget⟩ := hinjected hn
    rw [← htarget]
    exact p.target_not_mem r hr
  · rw [p.injected]
    exact List.pairwise_map.2 ((List.pairwise_map.1 p.nodup_targets).imp fun hne heq =>
      hne (congrArg identifier heq))
  · obtain ⟨r, hr, htarget⟩ := hinjected hn
    have hold := p.target_not_mem r hr
    rw [Replaced.mem_functionNames_iff p.analysed, p.functionNames_source, List.mem_append,
      not_or] at hold
    rw [namedFunctions_eq]
    change (functionNames (Token.meaning out)).count _ = 1
    rw [hnames, ← htarget, List.count_append, List.count_append, List.count_eq_zero.2 hold.1,
      List.count_eq_zero.2 hold.2, p.nodup_targets.count, if_pos (List.mem_map_of_mem hr)]
  · rw [hgrown.fields_functionForms]
    exact List.mem_append_right _ (List.mem_map_of_mem hr)
  · obtain ⟨r, hr, hreplacement, hsame'⟩ := p.exists_replacement hconfig
      (by rw [hsplit]; simp) hop
    exact ⟨r, hr, hsame', p.calls hconfig hsame hsplit hreplacement⟩

theorem run_resolved_copy :
    ∃ o, run {} "(module(func memory.copy 0(;;)0x0))" = .ok o ∧ o.isNoop = false ∧
      ∃ ts out layout layout' rs forest',
        tokenize "(module(func memory.copy 0(;;)0x0))" = .ok ts ∧
          Layout.ofTokens ts = .ok layout ∧ Resolved {} o ts out layout layout' rs forest' := by
  obtain ⟨o, hrun, hfound⟩ := exists_run_copy
  exact ⟨o, hrun, hfound, run_resolved rfl hrun hfound⟩

end BulkMemory.Pass
