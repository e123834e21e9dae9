import BulkMemory.Proofs.Layout.Balance
import BulkMemory.Proofs.Layout.Names
import BulkMemory.Proofs.Pass.Forest

/-!
# Trivia carries no meaning

What a run finds, where it inserts the functions and what it refuses is told by the tokens that carry
meaning, so two writings of one module come out as two writings of one module, or fail for the same
reason (`Pass.run_respaced`). Only the places that errors name may be others.
-/

namespace BulkMemory.Pass
set_option autoImplicit false

open Lexeme

/-- Two runs have found and done the same, and their outputs are writings of one module. -/
structure SameOutcome (o o' : Outcome) : Prop where
  detection : o.detection = o'.detection
  injected : o.injected = o'.injected
  copies : o.copiesReplaced = o'.copiesReplaced
  fills : o.fillsReplaced = o'.fillsReplaced
  meaning : ∃ out out', tokenize o.output = .ok out ∧ tokenize o'.output = .ok out' ∧
    Token.meaning out = Token.meaning out'

/-- Two runs succeed in the same way, or they fail for the same reason. -/
inductive SameResult : Except PassError Outcome → Except PassError Outcome → Prop where
  | ok {o o' : Outcome} : SameOutcome o o' → SameResult (.ok o) (.ok o')
  | error {e e' : PassError} : e.unplaced = e'.unplaced → SameResult (.error e) (.error e')

section Meaning

variable {ts ts' : List Token} (hsame : Token.meaning ts = Token.meaning ts')

/-! ### What the meaning tells -/

theorem has_scan_meaning (ts : List Token) (op : Op) :
    (Detection.scan ts).has op = (Token.meaning ts).any fun l => l.op? == some op := by
  rw [Detection.has_scan, Token.meaning, Token.significant, List.any_map, List.any_filter]
  refine congrArg ts.any (funext fun t => ?_)
  cases htrivia : t.isTrivia with
  | true => simp [op?_of_trivia htrivia]
  | false => simp

theorem countP_op?_meaning (ts : List Token) (op : Op) :
    (ts.countP fun t => t.op? = some op) = (Token.meaning ts).countP fun l => l.op? = some op := by
  rw [Token.meaning, Token.significant, List.countP_map, List.countP_filter]
  refine List.countP_congr fun t _ => ?_
  cases htrivia : t.isTrivia with
  | true => simp [op?_of_trivia htrivia]
  | false => simp

include hsame

theorem scan_eq : Detection.scan ts = Detection.scan ts' := by
  have hhas (op : Op) : (Detection.scan ts).has op = (Detection.scan ts').has op := by
    rw [has_scan_meaning, has_scan_meaning, hsame]
  have hcopy : (Detection.scan ts).copy = (Detection.scan ts').copy := hhas .copy
  have hfill : (Detection.scan ts).fill = (Detection.scan ts').fill := hhas .fill
  generalize Detection.scan ts = d, Detection.scan ts' = d' at hcopy hfill
  cases d
  cases d'
  exact congr (congrArg Detection.mk hcopy) hfill

theorem functionNames_eq {layout layout' : Layout} (h : Layout.ofTokens ts = .ok layout)
    (h' : Layout.ofTokens ts' = .ok layout') : layout.functionNames = layout'.functionNames := by
  rw [Layout.functionNames_of_ofTokens h, Layout.functionNames_of_ofTokens h', namedFunctions_eq,
    namedFunctions_eq]
  exact congrArg (fun ls => (functionNames ls).eraseDups) hsame

theorem refused?_unplaced (rs : List Replacement) :
    (Occurrence.refused? rs ts).map PassError.unplaced =
      (Occurrence.refused? rs ts').map PassError.unplaced := by
  rw [← Occurrence.refused?_significant, ← Occurrence.refused?_significant rs ts']
  exact Occurrence.refused?_congr rs hsame

/-- Both writings have a layout, or neither of them for the same reason. -/
theorem ofTokens_cases :
    (∃ layout layout', Layout.ofTokens ts = .ok layout ∧ Layout.ofTokens ts' = .ok layout') ∨
      ∃ e e', Layout.ofTokens ts = .error e ∧ Layout.ofTokens ts' = .error e' ∧
        e.unplaced = e'.unplaced := by
  have h' := Layout.ofTokens_spec ts'
  rw [← hsame] at h'
  rcases Layout.ofTokens_spec ts with
    ⟨⟨layout, hlayout⟩, hclosing, hbalanced⟩ | ⟨herror, hnone⟩ | ⟨⟨p, herror⟩, hclosing, hopen⟩
  · rcases h' with ⟨⟨layout', hlayout'⟩, -⟩ | ⟨-, hnone⟩ | ⟨-, -, hopen⟩
    · exact .inl ⟨layout, layout', hlayout, hlayout'⟩
    · exact absurd hclosing hnone
    · exact absurd hbalanced hopen
  · rcases h' with ⟨-, hclosing, -⟩ | ⟨herror', -⟩ | ⟨-, hclosing, -⟩
    · exact absurd hclosing hnone
    · exact .inr ⟨_, _, herror, herror', rfl⟩
    · exact absurd hclosing hnone
  · rcases h' with ⟨-, -, hbalanced⟩ | ⟨-, hnone⟩ | ⟨⟨p', herror'⟩, -⟩
    · exact absurd hbalanced hopen
    · exact absurd hclosing hnone
    · exact .inr ⟨_, _, herror, herror', rfl⟩

end Meaning

namespace Replaced

variable {config : Config} {source source' : String} {o o' : Outcome} {ts ts' : List Token}
  {layout layout' : Layout} {rs rs' : List Replacement}
  {front block back front' block' back' : List Lexeme}

/-- The anchor cuts two writings of a module at the same place. -/
theorem parts_eq (p : Replaced config source o ts layout rs front block back)
    (p' : Replaced config source' o' ts' layout' rs' front' block' back')
    (hsame : Token.meaning ts = Token.meaning ts') :
    significant front = significant front' ∧ significant back = significant back' := by
  obtain ⟨before, items, behind, hhosts, hproper, hmeaning, hwrapped, hbare⟩ := p.exists_hosts
  obtain ⟨before', items', behind', hhosts', hproper', hmeaning', hwrapped', hbare'⟩ := p'.exists_hosts
  have hforest : before ++ .group items :: behind = before' ++ .group items' :: behind' := by
    have hread := Form.ofLexemes?_lexemesAll hproper
    rw [← hmeaning, hsame, hmeaning', Form.ofLexemes?_lexemesAll hproper'] at hread
    exact (Option.some.inj hread).symm
  have hlayout : layout.wrapped = layout'.wrapped := by
    rw [hhosts.wrapped_eq, hforest, ← hhosts'.wrapped_eq]
  obtain ⟨rfl, rfl, rfl⟩ := hhosts.unique hhosts' hforest
  cases hkind : layout.wrapped with
  | true =>
    obtain ⟨hfront, hback⟩ := hwrapped hkind
    obtain ⟨hfront', hback'⟩ := hwrapped' (hlayout ▸ hkind)
    exact ⟨hfront.trans hfront'.symm, hback.trans hback'.symm⟩
  | false =>
    obtain ⟨hfront, hback⟩ := hbare hkind
    obtain ⟨hfront', hback'⟩ := hbare' (hlayout ▸ hkind)
    exact ⟨hfront.trans hfront'.symm, hback.trans hback'.symm⟩

theorem sameOutcome (hconfig : config.check = .ok ())
    (p : Replaced config source o ts layout rs front block back)
    (p' : Replaced config source' o' ts' layout' rs' front' block' back')
    (hsame : Token.meaning ts = Token.meaning ts') : SameOutcome o o' := by
  have hdetection : o.detection = o'.detection := by rw [p.detected, p'.detected, scan_eq hsame]
  obtain rfl : rs = rs' := by
    rw [p.functions, p'.functions, hdetection, functionNames_eq hsame p.analysed p'.analysed]
  obtain ⟨hfront, hback⟩ := p.parts_eq p' hsame
  obtain ⟨out, hout, hmeaning⟩ := tokenize_of_tiles (p.tiles_output hconfig)
  obtain ⟨out', hout', hmeaning'⟩ := tokenize_of_tiles (p'.tiles_output hconfig)
  refine ⟨hdetection, by rw [p.injected, p'.injected], ?_, ?_, out, out', ?_, ?_, ?_⟩
  · rw [p.copies, p'.copies, p.countP_op?, p'.countP_op?, countP_op?_meaning, hsame,
      ← countP_op?_meaning]
  · rw [p.fills, p'.fills, p.countP_op?, p'.countP_op?, countP_op?_meaning, hsame,
      ← countP_op?_meaning]
  · rw [p.output, hout]
  · rw [p'.output, hout']
  · rw [p.meaning_output hmeaning, p'.meaning_output hmeaning', hfront, hback]

end Replaced

variable {config : Config} {source source' : String} {ts ts' : List Token}

/-- A run does the same to all writings of a module, however they are spaced and commented. -/
theorem run_respaced (hconfig : config.check = .ok ()) (htokens : tokenize source = .ok ts)
    (htokens' : tokenize source' = .ok ts') (hsame : Token.meaning ts = Token.meaning ts') :
    SameResult (run config source) (run config source') := by
  have hscan := scan_eq hsame
  cases hfound : (Detection.scan ts).isEmpty with
  | true =>
    have hfound' := hscan ▸ hfound
    rw [run_of_op? htokens (Detection.isEmpty_scan_iff.1 hfound),
      run_of_op? htokens' (Detection.isEmpty_scan_iff.1 hfound')]
    exact .ok ⟨rfl, rfl, rfl, rfl, ts, ts', htokens, htokens', hsame⟩
  | false =>
    have hfound' := hscan ▸ hfound
    rcases ofTokens_cases hsame with ⟨layout, layout', hlayout, hlayout'⟩ | ⟨e, e', herror, herror', he⟩
    · have hfunctions : Replacement.forDetection (Detection.scan ts) config layout.functionNames =
          Replacement.forDetection (Detection.scan ts') config layout'.functionNames := by
        rw [hscan, functionNames_eq hsame hlayout hlayout']
      have hrefused := refused?_unplaced hsame
        (Replacement.forDetection (Detection.scan ts) config layout.functionNames)
      cases haccepted : Occurrence.refused?
          (Replacement.forDetection (Detection.scan ts) config layout.functionNames) ts with
      | none =>
        rw [haccepted, Option.map_none, eq_comm, Option.map_eq_none_iff, hfunctions] at hrefused
        obtain ⟨o, hrun, hdone⟩ := exists_run hconfig htokens hfound hlayout haccepted
        obtain ⟨o', hrun', hdone'⟩ := exists_run hconfig htokens' hfound' hlayout' hrefused
        obtain ⟨_, _, _, _, _, _, p⟩ := exists_replaced hconfig hrun hdone
        obtain ⟨_, _, _, _, _, _, p'⟩ := exists_replaced hconfig hrun' hdone'
        obtain rfl := Except.ok.inj (htokens.symm.trans p.tokenized)
        obtain rfl := Except.ok.inj (htokens'.symm.trans p'.tokenized)
        rw [hrun, hrun']
        exact .ok (p.sameOutcome hconfig p' hsame)
      | some e =>
        rw [haccepted, Option.map_some, eq_comm, Option.map_eq_some_iff, hfunctions] at hrefused
        obtain ⟨e', he', hunplaced⟩ := hrefused
        obtain ⟨f, hrun, hf⟩ := exists_error hconfig htokens hfound hlayout haccepted
        obtain ⟨f', hrun', hf'⟩ := exists_error hconfig htokens' hfound' hlayout' he'
        rw [hrun, hrun']
        exact .error (hf.trans (hunplaced.symm.trans hf'.symm))
    · rw [run_of_isEmpty htokens hfound, run_of_isEmpty htokens' hfound', herror, herror']
      exact .error he

theorem run_respaced_copy :
    SameResult (run {} "(module(func memory.copy 0(;;)0x0))")
      (run {} "(module;; memory.fill )\n(func (; \" ( ;)memory.copy 0 0x0))") := by
  have hlexemes : Lexer.run "(module(func memory.copy 0(;;)0x0))".toList = (copyLexemes, none) := by
    decide +kernel
  have hlexemes' : Lexer.run "(module;; memory.fill )\n(func (; \" ( ;)memory.copy 0 0x0))".toList =
      ([⟨.leftParen, "("⟩, ⟨.keyword, "module"⟩, ⟨.lineComment, ";; memory.fill )"⟩, ⟨.blank, "\n"⟩,
        ⟨.leftParen, "("⟩, ⟨.keyword, "func"⟩, ⟨.blank, " "⟩, ⟨.blockComment, "(; \" ( ;)"⟩,
        ⟨.keyword, "memory.copy"⟩, ⟨.blank, " "⟩, ⟨.number, "0"⟩, ⟨.blank, " "⟩, ⟨.number, "0x0"⟩,
        ⟨.rightParen, ")"⟩, ⟨.rightParen, ")"⟩], none) := by decide +kernel
  have htokens := tokenize.eq_def "(module(func memory.copy 0(;;)0x0))"
  have htokens' := tokenize.eq_def "(module;; memory.fill )\n(func (; \" ( ;)memory.copy 0 0x0))"
  rw [hlexemes] at htokens
  rw [hlexemes'] at htokens'
  refine run_respaced rfl htokens htokens' ?_
  rw [Token.meaning, Token.meaning, Token.map_significant_placeAll, Token.map_significant_placeAll]
  decide

end BulkMemory.Pass
