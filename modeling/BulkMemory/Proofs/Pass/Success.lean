import BulkMemory.Proofs.Layout.Balance
import BulkMemory.Proofs.Occurrence.Refusal
import BulkMemory.Proofs.Pass.Run

/-!
# When a run succeeds

`Pass.Accepts` says of a source alone whether a run succeeds on it, under any configuration without
faults, and `Pass.Cause` why it fails otherwise (`Pass.run_accepted`). The inserted functions have no
part in this: the enlarged module always falls into lexemes, and an instruction that is refused in it
is refused in the source.
-/

namespace BulkMemory.Pass
set_option autoImplicit false

open Lexeme

/-- The sources on which a run succeeds. -/
inductive Accepts (source : String) : Prop where
  /-- Neither mnemonic occurs, not even in a comment. The source may be no module at all. -/
  | unmentioned : (∀ op : Op, ¬ op.mnemonic.toList <:+: source.toList) → Accepts source
  | unused {ts : List Token} : tokenize source = .ok ts →
      (∀ t ∈ ts, ∀ op : Op, t.isKeyword op.mnemonic = false) → Accepts source
  | replaceable {ts : List Token} : tokenize source = .ok ts →
      HasClosing (ts.map Token.toLexeme) → AreBalanced (ts.map Token.toLexeme) →
      (∀ before op operand, ¬ RefusedAt (ts.map Token.toLexeme) before op operand) → Accepts source

/-- Why a run fails: a fault of the lexer comes first, then one of the layout, and then the first
instruction that is refused. -/
inductive Cause (source : String) : PassError → Prop where
  | lexemes {e : LexError} : tokenize source = .error e → Cause source (.lex e)
  | layout {ts : List Token} {e : PassError} : tokenize source = .ok ts →
      Layout.ofTokens ts = .error e → e.isStructural = true → Cause source e
  | operand {ts : List Token} {layout : Layout} {op : Op} {operand : Lexeme} (p : Position) :
      tokenize source = .ok ts → Layout.ofTokens ts = .ok layout →
      FirstRefused (ts.map Token.toLexeme) op operand →
      Cause source (.unsupportedOperand op.mnemonic operand.text p)

variable {config : Config} {source : String} {ts : List Token} {layout : Layout}

theorem mayOccur_eq_false_iff :
    Detection.mayOccur source = false ↔ ∀ op : Op, ¬ op.mnemonic.toList <:+: source.toList := by
  rw [Detection.mayOccur, List.any_eq_false]
  simp only [occursIn_iff]
  exact ⟨fun h op => h op op.mem_all, fun h op _ => h op⟩

/-- A module that uses an instruction is accepted if it has a layout and nothing is refused. -/
theorem accepts_iff (htokens : tokenize source = .ok ts)
    (hfound : (Detection.scan ts).isEmpty = false) :
    Accepts source ↔ (∃ layout, Layout.ofTokens ts = .ok layout) ∧
      ∀ before op operand, ¬ RefusedAt (ts.map Token.toLexeme) before op operand := by
  rw [Layout.ofTokens_ok_iff]
  constructor
  · intro h
    cases h with
    | unmentioned hnone =>
      have hmay := mayOccur_of_isEmpty htokens hfound
      rw [mayOccur_eq_false_iff.2 hnone] at hmay
      cases hmay
    | unused hts hnone =>
      obtain rfl := Except.ok.inj (htokens.symm.trans hts)
      rw [Detection.isEmpty_scan_iff.2 fun t ht => op?_eq_none_iff.2 (hnone t ht)] at hfound
      cases hfound
    | replaceable hts hclosing hbalanced hnone =>
      obtain rfl := Except.ok.inj (htokens.symm.trans hts)
      exact ⟨⟨hclosing, hbalanced⟩, hnone⟩
  · rintro ⟨⟨hclosing, hbalanced⟩, hnone⟩
    exact .replaceable htokens hclosing hbalanced hnone

/-- An error that names a refused operand names it at some place. -/
theorem eq_of_unplaced {e : PassError} {mnemonic operand : String} {p : Position}
    (h : e.unplaced = (PassError.unsupportedOperand mnemonic operand p).unplaced) :
    ∃ q, e = .unsupportedOperand mnemonic operand q := by
  cases e with
  | unsupportedOperand m o q =>
    cases h
    exact ⟨q, rfl⟩
  | _ => cases h

/-- A run succeeds on a source that is accepted, or it fails on another one for a cause. -/
inductive Decided (config : Config) (source : String) : Prop where
  | accepted {o : Outcome} : run config source = .ok o → Accepts source → Decided config source
  | rejected {e : PassError} : run config source = .error e → Cause source e → ¬ Accepts source →
      Decided config source

/-- A run on a module that uses an instruction is decided by the layout, and then by the operands. -/
theorem decided_of_used (hconfig : config.check = .ok ()) (htokens : tokenize source = .ok ts)
    (hfound : (Detection.scan ts).isEmpty = false) : Decided config source := by
  have haccepts := accepts_iff htokens hfound
  cases hlayout : Layout.ofTokens ts with
  | error e =>
    refine .rejected (run_of_ofTokens_eq_error htokens hfound hlayout config)
      (.layout htokens hlayout (Layout.isStructural_of_ofTokens hlayout)) ?_
    rw [haccepts, hlayout]
    rintro ⟨⟨layout, h⟩, -⟩
    cases h
  | ok layout =>
    have hfinds : Finds (ts.map Token.toLexeme) (Occurrence.refused?
        (Replacement.forDetection (Detection.scan ts) config layout.functionNames) ts) :=
      Occurrence.finds_refused? fun t ht => Replacement.op_replacement? ht config _
    generalize hrefused : Occurrence.refused? _ ts = e? at hfinds
    cases hfinds with
    | nothing hnone =>
      obtain ⟨o, hrun, -⟩ := exists_run hconfig htokens hfound hlayout hrefused
      exact .accepted hrun (haccepts.2 ⟨⟨layout, hlayout⟩, hnone⟩)
    | @first op operand p hfirst =>
      obtain ⟨e, hrun, hsame⟩ := exists_error hconfig htokens hfound hlayout hrefused
      obtain ⟨q, rfl⟩ := eq_of_unplaced hsame
      obtain ⟨before, hat, -⟩ := id hfirst
      exact .rejected hrun (.operand q htokens hlayout hfirst)
        fun h => (haccepts.1 h).2 before op operand hat

theorem decided (hconfig : config.check = .ok ()) (source : String) : Decided config source := by
  cases hmay : Detection.mayOccur source with
  | false =>
    exact .accepted (run_of_detect?_eq_none (detect?_of_not_mayOccur hmay) config)
      (.unmentioned (mayOccur_eq_false_iff.1 hmay))
  | true =>
    cases htokens : tokenize source with
    | error e =>
      refine .rejected (run_of_tokenize_eq_error hmay htokens config) (.lexemes htokens) fun h => ?_
      cases h with
      | unmentioned hnone =>
        rw [mayOccur_eq_false_iff.2 hnone] at hmay
        cases hmay
      | unused hts | replaceable hts =>
        rw [htokens] at hts
        cases hts
    | ok ts =>
      -- the mention may be one in trivia
      cases hfound : (Detection.scan ts).isEmpty with
      | true =>
        have hnone := Detection.isEmpty_scan_iff.1 hfound
        exact .accepted (run_of_op? htokens hnone config)
          (.unused htokens fun t ht => op?_eq_none_iff.1 (hnone t ht))
      | false => exact decided_of_used hconfig htokens hfound

/-- The enlarged module falls into lexemes, whatever is inserted and wherever. -/
theorem exists_tokenize_enlarged (hconfig : config.check = .ok ()) (htokens : tokenize source = .ok ts)
    (hlayout : Layout.ofTokens ts = .ok layout) (detection : Detection) :
    ∃ enlarged us,
      inject? source layout (Replacement.forDetection detection config layout.functionNames)
        config.indent = some enlarged ∧ tokenize enlarged = .ok us := by
  by_cases hne : Replacement.forDetection detection config layout.functionNames = []
  · rw [hne]
    exact ⟨source, ts, rfl, htokens⟩
  · obtain ⟨front, block, back, hsplice⟩ := exists_splice hconfig htokens hlayout detection
    obtain ⟨us, hus, -⟩ := tokenize_of_tiles (hsplice.tiles (head?_insertedText hne _ _))
    exact ⟨_, us, hsplice.inject?_eq hne, hus⟩

/-- A run succeeds on a source if and only if the source is accepted, and otherwise it fails for a cause
that lies in the source. The inserted functions never keep the lexer from reading the enlarged module. -/
theorem run_accepted (hconfig : config.check = .ok ()) (source : String) :
    ((∃ o, run config source = .ok o) ↔ Accepts source) ∧
      (¬ Accepts source → ∃ e, run config source = .error e ∧ Cause source e) ∧
      ∀ ts layout, tokenize source = .ok ts → Layout.ofTokens ts = .ok layout →
        ∃ enlarged us,
          inject? source layout
            (Replacement.forDetection (Detection.scan ts) config layout.functionNames)
            config.indent = some enlarged ∧ tokenize enlarged = .ok us := by
  refine ⟨?_, fun hrejected => ?_, fun ts layout htokens hlayout =>
    exists_tokenize_enlarged hconfig htokens hlayout _⟩
  · cases decided hconfig source with
    | accepted hrun haccepted => exact iff_of_true ⟨_, hrun⟩ haccepted
    | rejected hrun _ hrejected =>
      refine iff_of_false ?_ hrejected
      rintro ⟨o, ho⟩
      rw [hrun] at ho
      cases ho
  · cases decided hconfig source with
    | accepted _ haccepted => exact absurd haccepted hrejected
    | rejected hrun hcause => exact ⟨_, hrun, hcause⟩

theorem run_accepted_copy :
    Accepts "(module(func memory.copy 0(;;)0x0))" ∧
      ∃ e, run {} "(memory.fill 1)" = .error e ∧ Cause "(memory.fill 1)" e := by
  have hconfig : Config.check {} = .ok () := rfl
  obtain ⟨o, hrun, -⟩ := exists_run_copy
  refine ⟨(run_accepted hconfig _).1.1 ⟨o, hrun⟩, (run_accepted hconfig _).2.1 fun haccepted => ?_⟩
  have hlexemes : Lexer.run "(memory.fill 1)".toList =
      ([⟨.leftParen, "("⟩, ⟨.keyword, "memory.fill"⟩, ⟨.blank, " "⟩, ⟨.number, "1"⟩,
        ⟨.rightParen, ")"⟩], none) := by decide +kernel
  have htokens := tokenize.eq_def "(memory.fill 1)"
  rw [hlexemes] at htokens
  refine ((accepts_iff htokens (by decide)).1 haccepted).2 [⟨.leftParen, "("⟩] .fill ⟨.number, "1"⟩ ?_
  exact ⟨⟨.keyword, "memory.fill"⟩, _, rfl, by decide, [], [⟨.rightParen, ")"⟩], by decide, by decide,
    by simp, by decide, .inl rfl⟩

end BulkMemory.Pass
