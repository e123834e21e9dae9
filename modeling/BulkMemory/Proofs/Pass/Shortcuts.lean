import BulkMemory.Proofs.Pass.Success

/-!
# Shortcuts of the detection

The detection takes two shortcuts. It looks for the mnemonics in the bare text before it cuts the text
into lexemes, and it reads no further once both instructions are seen. `Pass.run_shortcuts` says that
neither is noticed in a source that falls into lexemes: a run then yields what `Pass.runThroughout`
yields, which cuts every source. In one that does not, the first shortcut decides whether the fault is
reported.
-/

namespace BulkMemory.Pass
set_option autoImplicit false

open Lexeme

/-! ### The pass without the look at the bare text -/

/-- The detection that cuts every source into lexemes. -/
def detectThroughout? (source : String) : Except PassError (Option (List Token × Detection)) := do
  let tokens ← (tokenize source).mapError .lex
  let detection := Detection.scan tokens
  return if detection.isEmpty then none else some (tokens, detection)

/-- The pass that cuts every source into lexemes. -/
def runThroughout (config : Config) (source : String) : Except PassError Outcome := do
  match ← detectThroughout? source with
  | none => return .unchanged source
  | some (tokens, detection) =>
    let layout ← Layout.ofTokens tokens
    replaceAll config source layout detection

variable {source : String} {ts : List Token}

/-! ### The scan -/

/-- The scan finds what a look at every token finds, although it may stop before the last one. -/
theorem has_scan_iff (ts : List Token) (op : Op) :
    (Detection.scan ts).has op = true ↔ ∃ t ∈ ts, t.isKeyword op.mnemonic = true := by
  rw [Detection.has_scan, List.any_eq_true]
  simp only [beq_iff_eq, op?_eq_some_iff]

/-! ### The bare text -/

/-- A text that mentions no instruction has none among its tokens. -/
theorem isEmpty_scan_of_not_mayOccur (htokens : tokenize source = .ok ts)
    (hmay : Detection.mayOccur source = false) : (Detection.scan ts).isEmpty = true := by
  cases hfound : (Detection.scan ts).isEmpty with
  | true => rfl
  | false =>
    rw [mayOccur_of_isEmpty htokens hfound] at hmay
    cases hmay

theorem isKeyword_of_not_mayOccur (htokens : tokenize source = .ok ts)
    (hmay : Detection.mayOccur source = false) {t : Token} (ht : t ∈ ts) (op : Op) :
    t.isKeyword op.mnemonic = false := by
  have hnone := Detection.isEmpty_scan_iff.1 (isEmpty_scan_of_not_mayOccur htokens hmay)
  exact op?_eq_none_iff.1 (hnone t ht) op

/-- The bare text and the tokens lead to the same detection. -/
theorem detect?_eq_detectThroughout? (htokens : tokenize source = .ok ts) :
    detect? source = detectThroughout? source := by
  cases hmay : Detection.mayOccur source with
  | true => rw [detect?, if_pos hmay, detectThroughout?]
  | false =>
    rw [detect?_of_not_mayOccur hmay, detectThroughout?, htokens]
    show Except.ok none =
      Except.ok (if (Detection.scan ts).isEmpty then none else some (ts, Detection.scan ts))
    rw [if_pos (isEmpty_scan_of_not_mayOccur htokens hmay)]

theorem run_eq_runThroughout (htokens : tokenize source = .ok ts) (config : Config) :
    run config source = runThroughout config source := by
  rw [run, detect?_eq_detectThroughout? htokens]
  rfl

/-- A source that mentions no instruction comes out as it went in, be it cut into lexemes or not. -/
theorem run_of_unmentioned (h : ∀ op : Op, ¬ op.mnemonic.toList <:+: source.toList)
    (config : Config) : run config source = .ok (.unchanged source) :=
  run_of_detect?_eq_none (detect?_of_not_mayOccur (mayOccur_eq_false_iff.2 h)) config

/-- In a source that falls into lexemes no token is an instruction if the bare text mentions none, the
scan finds the instructions of the whole list, and a run yields what one without the look at the bare
text yields. A source that does not fall into lexemes is left as it is if it mentions no instruction. -/
theorem run_shortcuts (source : String) :
    (∀ ts, tokenize source = .ok ts →
      (Detection.mayOccur source = false →
        ∀ t ∈ ts, ∀ op : Op, t.isKeyword op.mnemonic = false) ∧
      (∀ op, (Detection.scan ts).has op = true ↔ ∃ t ∈ ts, t.isKeyword op.mnemonic = true) ∧
      ∀ config, run config source = runThroughout config source) ∧
    (∀ e, tokenize source = .error e →
      (∀ op : Op, ¬ op.mnemonic.toList <:+: source.toList) →
      ∀ config, run config source = .ok (.unchanged source)) := by
  constructor
  · intro ts htokens
    refine ⟨fun hmay t ht op => isKeyword_of_not_mayOccur htokens hmay ht op, has_scan_iff ts,
      fun config => run_eq_runThroughout htokens config⟩
  · intro e _ hnone config
    exact run_of_unmentioned hnone config

/-- One mnemonic in a comment and one as an instruction, no mnemonic at all, and a string that does
not end. -/
theorem run_shortcuts_mentions :
    (∃ ts, tokenize "(;memory.copy;)memory.fill" = .ok ts ∧
      (Detection.scan ts).has .copy = false ∧ (Detection.scan ts).has .fill = true ∧
      run {} "(;memory.copy;)memory.fill" = runThroughout {} "(;memory.copy;)memory.fill") ∧
    (∃ ts, tokenize "memory.size" = .ok ts ∧ ∀ t ∈ ts, t.isKeyword "memory.copy" = false) ∧
    run {} "\"" = .ok (.unchanged "\"") := by
  refine ⟨?_, ?_, ?_⟩
  · have hlexemes : Lexer.run "(;memory.copy;)memory.fill".toList =
        ([⟨.blockComment, "(;memory.copy;)"⟩, ⟨.keyword, "memory.fill"⟩], none) := by decide +kernel
    have htokens := tokenize.eq_def "(;memory.copy;)memory.fill"
    rw [hlexemes] at htokens
    obtain ⟨-, hscan, hrun⟩ := (run_shortcuts _).1 _ htokens
    refine ⟨_, htokens, ?_, (hscan .fill).2 ?_, hrun {}⟩
    · rw [← Bool.not_eq_true, hscan .copy]
      decide
    · decide
  · have hlexemes : Lexer.run "memory.size".toList = ([⟨.keyword, "memory.size"⟩], none) := by
      decide +kernel
    have htokens := tokenize.eq_def "memory.size"
    rw [hlexemes] at htokens
    obtain ⟨hnone, -, -⟩ := (run_shortcuts _).1 _ htokens
    exact ⟨_, htokens, fun t ht => hnone (by decide +kernel) t ht .copy⟩
  · have hlexemes : Lexer.run "\"".toList = ([], some .unterminatedString) := by decide +kernel
    have htokens := tokenize.eq_def "\""
    rw [hlexemes] at htokens
    exact (run_shortcuts _).2 _ htokens (mayOccur_eq_false_iff.1 (by decide +kernel)) {}

end BulkMemory.Pass
