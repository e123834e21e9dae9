import BulkMemory.Proofs.Pass.Splice

/-!
# Runs of the pass

A run stops after the detection when nothing is found (`Pass.run_of_op?`). Otherwise it is a splice
and an exchange, `Pass.Replaced`: every such run gives one (`Pass.exists_replaced`), and a module
whose instructions are all accepted gives such a run (`Pass.exists_run`). A run fails where the module
itself has an instruction that is refused (`Pass.exists_error`).
-/

namespace BulkMemory.Pass
set_option autoImplicit false

open Lexeme

variable {config : Config} {source : String} {ts : List Token} {layout : Layout} {o : Outcome}

/-! ### The detection -/

theorem detect?_of_mayOccur (h : Detection.mayOccur source = true) :
    detect? source =
      match tokenize source with
      | .error e => .error (.lex e)
      | .ok ts => .ok (if (Detection.scan ts).isEmpty then none else some (ts, Detection.scan ts)) := by
  rw [detect?, if_pos h]
  cases tokenize source with
  | error e => rfl
  | ok ts => rfl

theorem detect?_of_not_mayOccur (h : Detection.mayOccur source = false) :
    detect? source = .ok none := by
  rw [detect?, h]
  rfl

theorem run_of_detect?_eq_none (h : detect? source = .ok none) (config : Config) :
    run config source = .ok (.unchanged source) := by
  rw [run, h]
  rfl

/-- A module without instructions comes out as it went in, under every configuration. -/
theorem run_of_op? (htokens : tokenize source = .ok ts) (h : ∀ t ∈ ts, t.op? = none)
    (config : Config) : run config source = .ok (.unchanged source) := by
  refine run_of_detect?_eq_none ?_ config
  cases hmay : Detection.mayOccur source with
  | false => exact detect?_of_not_mayOccur hmay
  | true =>
    rw [detect?_of_mayOccur hmay, htokens]
    simp only [Detection.isEmpty_scan_iff.2 h, if_true]

/-- A source that mentions an instruction has to fall into lexemes. -/
theorem run_of_tokenize_eq_error {e : LexError} (hmay : Detection.mayOccur source = true)
    (h : tokenize source = .error e) (config : Config) : run config source = .error (.lex e) := by
  rw [run, detect?_of_mayOccur hmay, h]
  rfl

/-- A source that holds an instruction mentions it. -/
theorem mayOccur_of_isEmpty (htokens : tokenize source = .ok ts)
    (hfound : (Detection.scan ts).isEmpty = false) : Detection.mayOccur source = true := by
  obtain ⟨t, ht, op, hop⟩ := Detection.isEmpty_scan_eq_false_iff.1 hfound
  obtain ⟨ls, rfl, hchars, -⟩ := tiles_of_tokenize htokens
  have hmem := List.mem_map_of_mem (f := Token.toLexeme) ht
  rw [Token.map_toLexeme_placeAll] at hmem
  refine List.any_eq_true.2 ⟨op, op.mem_all, occursIn_iff.2 ?_⟩
  rw [← hchars, ← (op?_eq_some hop).2]
  exact List.infix_of_mem_flatten (List.mem_map_of_mem hmem)

/-- A module that uses an instruction needs a layout, and then everything is replaced. -/
theorem run_of_isEmpty (htokens : tokenize source = .ok ts)
    (hfound : (Detection.scan ts).isEmpty = false) (config : Config) :
    run config source =
      Layout.ofTokens ts >>= fun layout => replaceAll config source layout (Detection.scan ts) := by
  rw [run, detect?_of_mayOccur (mayOccur_of_isEmpty htokens hfound), htokens]
  simp only [hfound, Bool.false_eq_true, if_false]
  rfl

theorem run_of_ofTokens_eq_error {e : PassError} (htokens : tokenize source = .ok ts)
    (hfound : (Detection.scan ts).isEmpty = false) (h : Layout.ofTokens ts = .error e)
    (config : Config) : run config source = .error e := by
  rw [run_of_isEmpty htokens hfound, h]
  rfl

theorem run_of_ofTokens_eq_ok (htokens : tokenize source = .ok ts)
    (hfound : (Detection.scan ts).isEmpty = false) (h : Layout.ofTokens ts = .ok layout)
    (config : Config) :
    run config source = replaceAll config source layout (Detection.scan ts) := by
  rw [run_of_isEmpty htokens hfound, h]
  rfl

/-- How far a source leads a run, whatever the configuration. -/
inductive Stage (source : String) : Prop where
  | idle : detect? source = .ok none → Stage source
  | lexemes {e : LexError} : Detection.mayOccur source = true → tokenize source = .error e →
      Stage source
  | layout {ts : List Token} {e : PassError} : tokenize source = .ok ts →
      (Detection.scan ts).isEmpty = false → Layout.ofTokens ts = .error e → Stage source
  | replacement {ts : List Token} {layout : Layout} : tokenize source = .ok ts →
      (Detection.scan ts).isEmpty = false → Layout.ofTokens ts = .ok layout → Stage source

theorem stage (source : String) : Stage source := by
  cases hmay : Detection.mayOccur source with
  | false => exact .idle (detect?_of_not_mayOccur hmay)
  | true =>
    cases htokens : tokenize source with
    | error e => exact .lexemes hmay htokens
    | ok ts =>
      cases hfound : (Detection.scan ts).isEmpty with
      | true =>
        refine .idle ?_
        rw [detect?_of_mayOccur hmay, htokens]
        simp only [hfound, if_true]
      | false =>
        cases hlayout : Layout.ofTokens ts with
        | error e => exact .layout htokens hfound hlayout
        | ok layout => exact .replacement htokens hfound hlayout

/-- A run finds nothing, or it replaces what it found. -/
theorem run_cases (h : run config source = .ok o) :
    (detect? source = .ok none ∧ o = .unchanged source) ∨
      ∃ ts layout, tokenize source = .ok ts ∧ (Detection.scan ts).isEmpty = false ∧
        Layout.ofTokens ts = .ok layout ∧
        replaceAll config source layout (Detection.scan ts) = .ok o := by
  cases stage source with
  | idle hnone =>
    rw [run_of_detect?_eq_none hnone] at h
    cases h
    exact .inl ⟨hnone, rfl⟩
  | lexemes hmay htokens =>
    rw [run_of_tokenize_eq_error hmay htokens] at h
    cases h
  | layout htokens hfound hlayout =>
    rw [run_of_ofTokens_eq_error htokens hfound hlayout] at h
    cases h
  | replacement htokens hfound hlayout =>
    rw [run_of_ofTokens_eq_ok htokens hfound hlayout] at h
    exact .inr ⟨_, _, htokens, hfound, hlayout, h⟩

/-! ### The replacement -/

theorem detection_of_replaceAll {detection : Detection}
    (h : replaceAll config source layout detection = .ok o) : o.detection = detection := by
  rw [replaceAll] at h
  split at h
  · cases h
  · next enlarged _ =>
    cases hexchange : exchangeAll enlarged
        (Replacement.forDetection detection config layout.functionNames) with
    | error e =>
      rw [hexchange] at h
      cases h
    | ok exchanged =>
      rw [hexchange] at h
      cases h
      rfl

/-- A run that is reported to have nothing to do did nothing. -/
theorem of_isNoop (hrun : run config source = .ok o) (hnoop : o.isNoop = true) :
    detect? source = .ok none ∧ o = .unchanged source := by
  rcases run_cases hrun with hnone | ⟨ts, layout, -, hempty, -, hreplace⟩
  · exact hnone
  · rw [Outcome.isNoop, detection_of_replaceAll hreplace, hempty] at hnoop
    cases hnoop

/-- A run that replaces something, told in lexemes. -/
structure Replaced (config : Config) (source : String) (o : Outcome) (ts : List Token)
    (layout : Layout) (rs : List Replacement) (front block back : List Lexeme) : Prop extends
    Splice rs source ts layout (insertedText rs config.indent layout.wrapped) front block back where
  tokenized : tokenize source = .ok ts
  analysed : Layout.ofTokens ts = .ok layout
  detected : o.detection = Detection.scan ts
  functions : rs = Replacement.forDetection o.detection config layout.functionNames
  nonempty : rs ≠ []
  accepted : Occurrence.refused? rs ts = none
  output : o.output = String.ofList (chars (exchanged rs front ++ (block ++ exchanged rs back)))
  injected : o.injected = rs.map Replacement.name
  copies : o.copiesReplaced =
    ts.countP fun t => (t.replacement? rs).map Replacement.op = some .copy
  fills : o.fillsReplaced =
    ts.countP fun t => (t.replacement? rs).map Replacement.op = some .fill

theorem functions_ne_nil (h : (Detection.scan ts).isEmpty = false) :
    Replacement.forDetection (Detection.scan ts) config layout.functionNames ≠ [] := by
  obtain ⟨op, hop⟩ := (Detection.isEmpty_eq_false_iff _).1 h
  intro hnil
  have hops := Replacement.map_op_forDetection (Detection.scan ts) config layout.functionNames
  rw [hnil] at hops
  have hmem := Detection.mem_ops.2 hop
  rw [← hops] at hmem
  cases hmem

theorem functions_isWritable (hconfig : config.check = .ok ()) {detection : Detection} :
    ∀ r ∈ Replacement.forDetection detection config layout.functionNames,
      r.function.isWritable = true := by
  intro r hr
  obtain ⟨op, name, rfl, hname⟩ := Replacement.exists_named_of_mem_forOps hconfig hr
  exact Replacement.isWritable_named hname

/-- A module with a layout can be cut for the functions that a run inserts. -/
theorem exists_splice (hconfig : config.check = .ok ()) (htokens : tokenize source = .ok ts)
    (hlayout : Layout.ofTokens ts = .ok layout) (detection : Detection) :
    ∃ front block back,
      Splice (Replacement.forDetection detection config layout.functionNames) source ts layout
        (insertedText (Replacement.forDetection detection config layout.functionNames) config.indent
          layout.wrapped) front block back :=
  Splice.exists_of_layout (functions_isWritable hconfig) (config.isIndent_indent hconfig) htokens hlayout

/-- A splice decides what a run does to the module: it fails for the first operand that is refused in
the enlarged module, or it replaces everything. -/
theorem run_of_splice {rs : List Replacement} {front block back : List Lexeme}
    (htokens : tokenize source = .ok ts) (hfound : (Detection.scan ts).isEmpty = false)
    (hlayout : Layout.ofTokens ts = .ok layout)
    (hrs : rs = Replacement.forDetection (Detection.scan ts) config layout.functionNames)
    (s : Splice rs source ts layout (insertedText rs config.indent layout.wrapped) front block back) :
    (∃ e, Occurrence.refused? rs (Token.placeAll 0 .start (front ++ (block ++ back))) = some e ∧
      run config source = .error e) ∨
    ∃ o, Occurrence.refused? rs (Token.placeAll 0 .start (front ++ (block ++ back))) = none ∧
      run config source = .ok o ∧ Replaced config source o ts layout rs front block back := by
  have hne : rs ≠ [] := hrs ▸ functions_ne_nil hfound
  rw [run_of_ofTokens_eq_ok htokens hfound hlayout, s.replaceAll_eq hrs hne]
  cases hrefused : Occurrence.refused? rs (Token.placeAll 0 .start (front ++ (block ++ back))) with
  | some e => exact .inl ⟨e, rfl, rfl⟩
  | none =>
    have haccepted := (s.refused?_eq_none_iff hne).1 hrefused
    exact .inr ⟨_, rfl, rfl, s, htokens, hlayout, rfl, hrs, hne, haccepted, rfl, rfl, rfl, rfl⟩

/-- Every run that finds something replaces it. -/
theorem exists_replaced (hconfig : config.check = .ok ()) (hrun : run config source = .ok o)
    (hfound : o.isNoop = false) :
    ∃ ts layout rs front block back,
      Replaced config source o ts layout rs front block back := by
  rcases run_cases hrun with ⟨-, rfl⟩ | ⟨ts, layout, htokens, hempty, hlayout, -⟩
  · cases hfound
  obtain ⟨front, block, back, hsplice⟩ := exists_splice hconfig htokens hlayout (Detection.scan ts)
  rcases run_of_splice htokens hempty hlayout rfl hsplice with ⟨e, -, herror⟩ | ⟨o', -, hok, p⟩
  · rw [hrun] at herror
    cases herror
  · obtain rfl := Except.ok.inj (hrun.symm.trans hok)
    exact ⟨ts, layout, _, front, block, back, p⟩

section Layout

variable (hconfig : config.check = .ok ()) (htokens : tokenize source = .ok ts)
  (hfound : (Detection.scan ts).isEmpty = false) (hlayout : Layout.ofTokens ts = .ok layout)

include hconfig htokens hfound hlayout

/-- A run succeeds on a module whose parentheses match and whose instructions are all accepted. -/
theorem exists_run
    (haccepted : Occurrence.refused?
      (Replacement.forDetection (Detection.scan ts) config layout.functionNames) ts = none) :
    ∃ o, run config source = .ok o ∧ o.isNoop = false := by
  obtain ⟨front, block, back, hsplice⟩ := exists_splice hconfig htokens hlayout (Detection.scan ts)
  rcases run_of_splice htokens hfound hlayout rfl hsplice with ⟨e, hrefused, -⟩ | ⟨o, -, hrun, p⟩
  · rw [(hsplice.refused?_eq_none_iff (functions_ne_nil hfound)).2 haccepted] at hrefused
    cases hrefused
  · exact ⟨o, hrun, by rw [Outcome.isNoop, p.detected, hfound]⟩

/-- A run fails on a module with an instruction that is refused, wherever it finds it then. -/
theorem exists_error {e : PassError}
    (hrefused : Occurrence.refused?
      (Replacement.forDetection (Detection.scan ts) config layout.functionNames) ts = some e) :
    ∃ e', run config source = .error e' ∧ e'.unplaced = e.unplaced := by
  obtain ⟨front, block, back, hsplice⟩ := exists_splice hconfig htokens hlayout (Detection.scan ts)
  have hsame := hsplice.refused?_eq (functions_ne_nil hfound)
  rw [hrefused, Option.map_some] at hsame
  rcases run_of_splice htokens hfound hlayout rfl hsplice with ⟨e', he', hrun⟩ | ⟨o, hnone, -, -⟩
  · rw [he', Option.map_some] at hsame
    exact ⟨e', hrun, Option.some.inj hsame⟩
  · rw [hnone] at hsame
    cases hsame

end Layout

/-- The lexemes of a module with one instruction and both of its indices. -/
def copyLexemes : List Lexeme :=
  [⟨.leftParen, "("⟩, ⟨.keyword, "module"⟩, ⟨.leftParen, "("⟩, ⟨.keyword, "func"⟩, ⟨.blank, " "⟩,
    ⟨.keyword, "memory.copy"⟩, ⟨.blank, " "⟩, ⟨.number, "0"⟩, ⟨.blockComment, "(;;)"⟩,
    ⟨.number, "0x0"⟩, ⟨.rightParen, ")"⟩, ⟨.rightParen, ")"⟩]

theorem exists_run_copy :
    ∃ o, run {} "(module(func memory.copy 0(;;)0x0))" = .ok o ∧ o.isNoop = false := by
  have hrun : Lexer.run "(module(func memory.copy 0(;;)0x0))".toList = (copyLexemes, none) := by
    decide +kernel
  have htokens : tokenize "(module(func memory.copy 0(;;)0x0))" =
      .ok (Token.placeAll 0 .start copyLexemes) := by rw [tokenize, hrun]
  exact exists_run rfl htokens (by decide)
    (show _ = Except.ok ⟨34, true, []⟩ from rfl) rfl

end BulkMemory.Pass
