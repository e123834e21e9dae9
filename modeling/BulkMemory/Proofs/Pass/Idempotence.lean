import BulkMemory.Proofs.Pass.Output

/-!
# A second run finds nothing

No instruction is left in the output of a run (`Replaced.op?_output`), so every further run returns it
as it is, under any configuration, and a run that replaced something has changed its input.
-/

namespace BulkMemory.Pass
set_option autoImplicit false

open Lexeme

variable {config : Config} {source : String} {o : Outcome}

/-- The output falls into tokens, and none of them is an instruction. -/
theorem Replaced.op?_output {ts : List Token} {layout : Layout} {rs : List Replacement}
    {front block back : List Lexeme} (hconfig : config.check = .ok ())
    (p : Replaced config source o ts layout rs front block back) :
    ∃ out, tokenize o.output = .ok out ∧ ∀ t ∈ out, t.op? = none := by
  have hlexemes {l : Lexeme} (hl : l ∈ front ++ back) :
      (l.replacement? rs).map Replacement.op = l.op? := by
    rw [← Token.map_toLexeme_placeAll 0 .start (front ++ back), ← p.tokens] at hl
    obtain ⟨t, ht, rfl⟩ := List.mem_map.1 hl
    exact p.op_replacement? t ht
  have hall : ∀ l ∈ exchanged rs front ++ (block ++ exchanged rs back), l.op? = none := by
    intro l hl
    rcases List.mem_append.1 hl with hl | hl
    · exact op?_exchanged (fun k hk => hlexemes (List.mem_append_left back hk)) l hl
    rcases List.mem_append.1 hl with hl | hl
    · exact p.op?_block l hl
    · exact op?_exchanged (fun k hk => hlexemes (List.mem_append_right front hk)) l hl
  obtain ⟨out, hout, hsame⟩ := tokenize_of_tiles (p.tiles_output hconfig)
  refine ⟨out, by rw [p.output, hout], fun t ht => ?_⟩
  cases hmeaning : t.isTrivia with
  | true => exact op?_of_trivia hmeaning
  | false =>
    have hmem : t ∈ Token.significant out := List.mem_filter.2 ⟨ht, by simp [hmeaning]⟩
    rw [hsame] at hmem
    apply hall t.toLexeme
    rw [← Token.map_toLexeme_placeAll 0 .start (exchanged rs front ++ _)]
    exact List.mem_map_of_mem (List.mem_filter.1 hmem).1

/-- Run the pass over its own output again and again, each time under another configuration. -/
def runAll (configs : List Config) (source : String) : Except PassError String :=
  configs.foldlM (fun text config => (run config text).map Outcome.output) source

theorem runAll_of_run {source : String} (h : ∀ config, run config source = .ok (.unchanged source))
    (configs : List Config) : runAll configs source = .ok source := by
  induction configs with
  | nil => rfl
  | cons config configs ih =>
    rw [runAll, List.foldlM_cons, h config]
    exact ih

/-- The output of a run that found something is another text. -/
theorem Replaced.output_ne {ts : List Token} {layout : Layout} {rs : List Replacement}
    {front block back : List Lexeme} (hconfig : config.check = .ok ())
    (p : Replaced config source o ts layout rs front block back) (hfound : o.isNoop = false) :
    o.output ≠ source := by
  intro hsame
  obtain ⟨out, hout, hnone⟩ := p.op?_output hconfig
  rw [hsame, p.tokenized] at hout
  obtain rfl := Except.ok.inj hout
  rw [Outcome.isNoop, p.detected, Detection.isEmpty_scan_iff.2 hnone] at hfound
  cases hfound

/-- A run leaves no instruction, and what it leaves stays as it is in all further runs. -/
theorem run_settles (hconfig : config.check = .ok ()) (hrun : run config source = .ok o) :
    (o.isNoop = true ∧ o.output = source ∨
      o.isNoop = false ∧ o.output ≠ source ∧
        ∃ out, tokenize o.output = .ok out ∧
          ∀ t ∈ out, ∀ op : Op, t.isKeyword op.mnemonic = false) ∧
      (∀ config', run config' o.output = .ok (.unchanged o.output)) ∧
      (∀ configs, runAll configs o.output = .ok o.output) ∧
      (o.isNoop = true ↔ o.output = source) := by
  cases hfound : o.isNoop with
  | true =>
    obtain ⟨hnone, rfl⟩ := of_isNoop hrun hfound
    have hagain := run_of_detect?_eq_none hnone
    exact ⟨.inl ⟨rfl, rfl⟩, hagain, runAll_of_run hagain, fun _ => rfl, fun _ => rfl⟩
  | false =>
    obtain ⟨ts, layout, rs, front, block, back, p⟩ := exists_replaced hconfig hrun hfound
    obtain ⟨out, hout, hnone⟩ := p.op?_output hconfig
    have hagain := run_of_op? hout hnone
    have hchanged := p.output_ne hconfig hfound
    exact ⟨.inr ⟨rfl, hchanged, out, hout, fun t ht => op?_eq_none_iff.1 (hnone t ht)⟩, hagain,
      runAll_of_run hagain, fun h => absurd h (by decide), fun h => absurd h hchanged⟩

theorem run_settles_copy :
    ∃ o, run {} "(module(func memory.copy 0(;;)0x0))" = .ok o ∧
      (o.isNoop = true ∧ o.output = "(module(func memory.copy 0(;;)0x0))" ∨
        o.isNoop = false ∧ o.output ≠ "(module(func memory.copy 0(;;)0x0))" ∧
          ∃ out, tokenize o.output = .ok out ∧
            ∀ t ∈ out, ∀ op : Op, t.isKeyword op.mnemonic = false) ∧
      (∀ config', run config' o.output = .ok (.unchanged o.output)) ∧
      (∀ configs, runAll configs o.output = .ok o.output) ∧
      (o.isNoop = true ↔ o.output = "(module(func memory.copy 0(;;)0x0))") := by
  obtain ⟨o, hrun, -⟩ := exists_run_copy
  exact ⟨o, hrun, run_settles rfl hrun⟩

end BulkMemory.Pass
