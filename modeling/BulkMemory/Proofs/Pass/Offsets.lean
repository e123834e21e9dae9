import BulkMemory.Proofs.Layout.Balance
import BulkMemory.Proofs.Occurrence.Lookahead
import BulkMemory.Proofs.Pass.Run
import BulkMemory.Proofs.Replacement.Choice

/-!
# The pass at offsets and indices

`Pass.runByOffset?` is the pass with every slice of a text and of a list of tokens checked, and with
loops of which nothing says that they end, the search for names included. `Pass.run_fits` says that it
always yields what `Pass.run` yields, under any configuration: no slice fails to fit, and every loop
ends.
-/

namespace BulkMemory
set_option autoImplicit false

/-- Insert functions by cutting the text at the anchor. -/
def injectByOffset? (source : String) (layout : Layout) (rs : List Replacement) (indent : String) :
    Option String :=
  if rs.isEmpty then some source
  else do
    let front ← slice? ⟨0, layout.anchor⟩ source.toList
    let back ← slice? ⟨layout.anchor, byteSize source.toList⟩ source.toList
    return String.ofList (front ++ (insertedText rs indent layout.wrapped).toList ++ back)

namespace Pass

/-- Replace the instructions of a module whose layout is known, by offsets and indices. -/
noncomputable def replaceAllByOffset? (config : Config) (source : String) (layout : Layout)
    (detection : Detection) : Option (Except PassError Outcome) := do
  let rs ← Replacement.search? config layout.functionNames detection.ops
  let enlarged ← injectByOffset? source layout rs config.indent
  match ← exchangeByOffset? enlarged rs with
  | .error e => return .error e
  | .ok exchanged =>
    return .ok {
      output := exchanged.output
      detection
      injected := rs.map Replacement.name
      copiesReplaced := exchanged.copies
      fillsReplaced := exchanged.fills }

/-- Run the pass over a module by offsets and indices. -/
noncomputable def runByOffset? (config : Config) (source : String) : Option (Except PassError Outcome) :=
  if Detection.mayOccur source then do
    match ← Cursor.tokens? source.toList .start with
    | .error e => return .error (.lex e)
    | .ok tokens =>
      let detection := Detection.scan tokens
      if detection.isEmpty then return .ok (.unchanged source)
      else
        match Layout.ofTokens tokens with
        | .error e => return .error e
        | .ok layout => replaceAllByOffset? config source layout detection
  else return .ok (.unchanged source)

variable {config : Config} {source : String} {ts : List Token} {layout : Layout}

open Lexeme

/-- The anchor of a module cuts its text. -/
theorem exists_cut (htokens : tokenize source = .ok ts) (hlayout : Layout.ofTokens ts = .ok layout) :
    ∃ front back, source.toList = front ++ back ∧ layout.anchor = byteSize front := by
  obtain ⟨ls, rfl, hchars, -⟩ := tiles_of_tokenize htokens
  obtain ⟨front, back, rfl, hanchor, -⟩ := Layout.exists_apart hlayout
  exact ⟨chars front, chars back, by rw [← hchars, chars_append], hanchor⟩

/-- Any functions can be inserted, in one edit and by slices alike. -/
theorem exists_injectByOffset? (htokens : tokenize source = .ok ts)
    (hlayout : Layout.ofTokens ts = .ok layout) (rs : List Replacement) (indent : String) :
    ∃ enlarged, inject? source layout rs indent = some enlarged ∧
      injectByOffset? source layout rs indent = some enlarged := by
  rw [inject?, injectByOffset?]
  cases hempty : rs.isEmpty with
  | true => exact ⟨source, rfl, rfl⟩
  | false =>
    obtain ⟨front, back, hsource, hanchor⟩ := exists_cut htokens hlayout
    have hfront : slice? ⟨0, layout.anchor⟩ source.toList = some front :=
      slice?_eq_some_iff.2 ⟨[], back, hsource, by rw [hanchor, byteSize_nil, Nat.zero_add]⟩
    have hback : slice? ⟨layout.anchor, byteSize source.toList⟩ source.toList = some back :=
      slice?_eq_some_iff.2 ⟨front, [], by simp [hsource], by rw [hanchor, hsource, byteSize_append]⟩
    have hedit := Edit.applyFrom?_cons_append 0 front [] back
      (insertedText rs indent layout.wrapped) []
    simp only [Nat.zero_add, byteSize_nil, Nat.add_zero, List.nil_append, Edit.applyFrom?_nil,
      Option.map_some, ← hsource, ← hanchor] at hedit
    refine ⟨String.ofList (front ++ (insertedText rs indent layout.wrapped).toList ++ back), ?_, ?_⟩
    · exact congrArg (Option.map String.ofList) hedit
    · simp only [hfront, hback]
      rfl

/-- A module with a layout is replaced by slices that fit, or an instruction is refused. -/
theorem replaceAllByOffset?_eq (htokens : tokenize source = .ok ts)
    (hlayout : Layout.ofTokens ts = .ok layout) (config : Config) (detection : Detection) :
    replaceAllByOffset? config source layout detection =
        some (replaceAll config source layout detection) ∧
      replaceAll config source layout detection ≠ .error .misplacedEdit := by
  have hnames : Replacement.search? config layout.functionNames detection.ops =
      some (Replacement.forDetection detection config layout.functionNames) :=
    Replacement.search?_eq config layout.functionNames detection.ops
  rw [replaceAllByOffset?, replaceAll, hnames]
  generalize Replacement.forDetection detection config layout.functionNames = rs
  obtain ⟨enlarged, hinject, hslices⟩ := exists_injectByOffset? htokens hlayout rs config.indent
  have hfits := exchangeAll_ne_misplacedEdit enlarged rs
  simp only [hslices, hinject, exchangeByOffset?_eq, Option.bind_eq_bind, Option.bind_some]
  cases hresult : exchangeAll enlarged rs with
  | error e =>
    refine ⟨rfl, fun h => ?_⟩
    obtain rfl : e = .misplacedEdit := by injection h
    exact hfits hresult
  | ok exchanged =>
    refine ⟨rfl, fun h => ?_⟩
    cases h

/-- The pass by offsets yields what the pass yields, and no edit of the pass fails to fit. -/
theorem runByOffset?_eq (config : Config) (source : String) :
    runByOffset? config source = some (run config source) ∧
      run config source ≠ .error .misplacedEdit := by
  cases hmay : Detection.mayOccur source with
  | false =>
    rw [run_of_detect?_eq_none (detect?_of_not_mayOccur hmay), runByOffset?, hmay]
    exact ⟨rfl, by simp⟩
  | true =>
    rw [runByOffset?, if_pos hmay, Cursor.tokens?_start]
    cases htokens : tokenize source with
    | error e =>
      rw [run_of_tokenize_eq_error hmay htokens]
      exact ⟨rfl, by simp⟩
    | ok ts =>
      simp only [Option.bind_eq_bind, Option.bind_some]
      cases hfound : (Detection.scan ts).isEmpty with
      | true =>
        rw [run_of_op? htokens (Detection.isEmpty_scan_iff.1 hfound)]
        exact ⟨rfl, by simp⟩
      | false =>
        simp only [Bool.false_eq_true, if_false]
        cases hlayout : Layout.ofTokens ts with
        | error e =>
          rw [run_of_ofTokens_eq_error htokens hfound hlayout]
          refine ⟨rfl, fun h => ?_⟩
          have hstructural := Layout.isStructural_of_ofTokens hlayout
          obtain rfl : e = .misplacedEdit := by injection h
          cases hstructural
        | ok layout =>
          rw [run_of_ofTokens_eq_ok htokens hfound hlayout]
          exact replaceAllByOffset?_eq htokens hlayout config (Detection.scan ts)

/-- A slice of a text is refused exactly when its range runs backwards, leaves the text or cuts a
character, and one of a list when it begins behind the end. A run takes no such slice, uses no index
outside its list, and comes to an end. -/
theorem run_fits (config : Config) (source : String) :
    (∀ (span : Span) (text : String),
      (slice? span text.toList).isSome = true ↔ span.Fits text) ∧
    (∀ (ts : List Token) (index : Nat), (tail? index ts).isSome = true ↔ index ≤ ts.length) ∧
    runByOffset? config source = some (run config source) ∧
    run config source ≠ .error .misplacedEdit := by
  refine ⟨fun span text => isSome_slice?_iff, fun ts index => ?_, runByOffset?_eq config source⟩
  rw [tail?, Option.isSome_ite]

end Pass

end BulkMemory
