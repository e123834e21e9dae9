import BulkMemory.Proofs.Occurrence.Operand
import BulkMemory.Proofs.Pass.Breaks
import BulkMemory.Proofs.Pass.Forest

/-!
# What a configuration decides

A configuration chooses the names of the inserted functions and their indentation, and nothing else
depends on it (`Pass.run_renamed`). What the lexer finds in the output is a row of slots that the source
alone determines (`Slot.template`): names fill some of them, and the others are written already. An
error is the same under every configuration, its place included, since the functions take the same
lines under all of them.
-/

namespace BulkMemory
set_option autoImplicit false

/-- A place for a lexeme in the output: the lexeme is known without the names of the functions, or it
is the name of the function for an instruction. -/
inductive Slot where
  | written (l : Lexeme)
  | name (op : Op)

namespace Slot

/-- The lexeme in a slot, if the functions have the given names. -/
def fill (names : Op → String) : Slot → Lexeme
  | written l => l
  | name op => Lexeme.named (names op)

/-- Calls in place of instructions, as `Lexeme.calls` puts them there. -/
def calls : List Lexeme → List Slot
  | [] => []
  | l :: ls =>
    match l.op? with
    | none => written l :: calls ls
    | some op =>
      written ⟨.keyword, "call"⟩ :: name op ::
        calls (ls.drop (takenIndices id op.indexCount ls).length)
termination_by ls => ls.length
decreasing_by
  · simp
  · simp only [List.length_drop, List.length_cons]
    omega

/-- The function for an instruction. -/
def function (op : Op) : List Slot :=
  written Form.opening :: written ⟨.keyword, "func"⟩ :: name op ::
    ((Replacement.named op "").function.form.lexemes.drop 3).map written

/-- The output for a module: calls in place of its instructions, and at the anchor one function for each
kind of them. -/
def template (ts : List Token) (layout : Layout) : List Slot :=
  calls (Token.meaning (ts.filter fun t => t.stop ≤ layout.anchor)) ++
    ((Detection.scan ts).ops.flatMap function ++
      calls (Token.meaning (ts.filter fun t => layout.anchor < t.stop)))

theorem map_fill_written (names : Op → String) (ls : List Lexeme) :
    (ls.map written).map (fill names) = ls := by
  rw [List.map_map]
  exact List.map_id _

theorem map_fill_function (names : Op → String) (op : Op) :
    (function op).map (fill names) = (Replacement.named op (names op)).function.form.lexemes := by
  rw [function, List.map_cons, List.map_cons, List.map_cons, map_fill_written]
  cases op <;> rfl

variable {rs : List Replacement} {names : Op → String}

/-- The calls of a run fill the slots with the names of its functions. -/
theorem map_fill_calls (hnames : ∀ r ∈ rs, r.name = names r.op) {ls : List Lexeme}
    (hops : ∀ l ∈ ls, (l.replacement? rs).map Replacement.op = l.op?) :
    (calls ls).map (fill names) = Lexeme.calls rs ls := by
  fun_induction calls ls with
  | case1 => rw [Lexeme.calls, List.map_nil]
  | case2 l ls hnone ih =>
    obtain ⟨hl, hlater⟩ := List.forall_mem_cons.1 hops
    rw [hnone, Option.map_eq_none_iff] at hl
    rw [Lexeme.calls_cons_of_none hl, List.map_cons, ih hlater]
    rfl
  | case3 l ls op hsome ih =>
    obtain ⟨hl, hlater⟩ := List.forall_mem_cons.1 hops
    rw [hsome, Option.map_eq_some_iff] at hl
    obtain ⟨r, hr, rfl⟩ := hl
    have hname := hnames r (Lexeme.replacement?_eq_some hr).2.1
    rw [Lexeme.calls_cons_of_some hr, hname, List.map_cons, List.map_cons,
      ih fun k hk => hlater k (List.mem_of_mem_drop hk)]
    rfl

theorem map_fill_flatMap_function (hnames : ∀ r ∈ rs, r.name = names r.op)
    (hnamed : ∀ r ∈ rs, ∃ op name, r = Replacement.named op name) :
    ((rs.map Replacement.op).flatMap function).map (fill names) = functionLexemes rs := by
  induction rs with
  | nil => rfl
  | cons r rs ih =>
    obtain ⟨hname, hnames'⟩ := List.forall_mem_cons.1 hnames
    obtain ⟨⟨op, name, rfl⟩, hnamed'⟩ := List.forall_mem_cons.1 hnamed
    rw [Replacement.name_named, Replacement.op_named] at hname
    rw [List.map_cons, List.flatMap_cons, List.map_append, Replacement.op_named, map_fill_function,
      ← hname, ih hnames' hnamed']
    rfl

end Slot

/-- Functions for instructions of different kinds have names that the kinds tell. -/
theorem Replacement.exists_names {rs : List Replacement} (h : (rs.map op).Nodup) :
    ∃ names : Op → String, ∀ r ∈ rs, r.name = names r.op := by
  induction rs with
  | nil => exact ⟨fun _ => "", by simp⟩
  | cons r rs ih =>
    obtain ⟨hfirst, hrest⟩ := List.nodup_cons.1 h
    obtain ⟨names, hnames⟩ := ih hrest
    refine ⟨fun op => if op = r.op then r.name else names op, fun q hq => ?_⟩
    rcases List.mem_cons.1 hq with rfl | hq
    · exact (if_pos rfl).symm
    · have hne : q.op ≠ r.op := fun heq => hfirst (heq ▸ List.mem_map_of_mem hq)
      exact (hnames q hq).trans (if_neg hne).symm

theorem Detection.nodup_ops (d : Detection) : d.ops.Nodup :=
  List.Nodup.sublist List.filter_sublist (by decide)

/-- The place of an error does not depend on where the bytes of the text are counted from. -/
theorem Occurrence.refused?_placeAll_start (rs : List Replacement) (start start' : Nat)
    (position : Position) (ls : List Lexeme) :
    refused? rs (Token.placeAll start position ls) = refused? rs (Token.placeAll start' position ls) := by
  cases blame rs ls with
  | nothing hnone => rw [hnone, hnone]
  | operand _ _ hrefused => rw [hrefused, hrefused]

namespace Splice

variable {rs rs' : List Replacement} {source inserted inserted' : String} {ts : List Token}
  {layout : Layout} {front block block' back : List Lexeme}

/-- Where functions can be inserted, others can as well. -/
theorem exists_other (s : Splice rs source ts layout inserted front block back)
    (hrs : ∀ r ∈ rs', r.function.isWritable = true) {indent : String}
    (hindent : Config.isIndent indent = true) :
    ∃ block', Splice rs' source ts layout (insertedText rs' indent layout.wrapped) front block' back := by
  obtain ⟨block', hblock, hsignificant, hstands⟩ := reads_insertedText hrs hindent layout.wrapped
  exact ⟨block', s.tokens, s.chars_eq, s.tiles_source, s.anchor, s.apart, hblock, hsignificant,
    fun rest => hstands rest trivial⟩

/-- Functions of the same kinds that take the same lines lead to the same error. -/
theorem refused?_enlarged_eq (s : Splice rs source ts layout inserted front block back)
    (s' : Splice rs' source ts layout inserted' front block' back) (hne : rs ≠ [])
    (hops : rs.map Replacement.op = rs'.map Replacement.op)
    (hafter : ∀ p : Position, p.after inserted.toList = p.after inserted'.toList) :
    Occurrence.refused? rs (Token.placeAll 0 .start (front ++ (block ++ back))) =
      Occurrence.refused? rs' (Token.placeAll 0 .start (front ++ (block' ++ back))) := by
  have hne' : rs' ≠ [] := by
    intro hnil
    rw [hnil, List.map_nil, List.map_eq_nil_iff] at hops
    exact hne hops
  rw [s.refused?_enlarged hne, s'.refused?_enlarged hne', Occurrence.refused?_of_ops hops,
    Occurrence.refused?_of_ops hops, hafter]
  exact congrArg _ (Occurrence.refused?_placeAll_start ..)

end Splice

namespace Pass

/-- The lexer finds in the output what the names of the functions make of some slots. -/
structure Fills (o : Outcome) (slots : List Slot) (names : Op → String) : Prop where
  injected : o.injected = o.detection.ops.map names
  output : ∃ out, tokenize o.output = .ok out ∧ Token.meaning out = slots.map (Slot.fill names)

/-- Two runs over a source have found and done the same, and the outputs differ in nothing but trivia and
in the names of the functions, which stand where the functions begin and where they are called. -/
structure SameButNames (source : String) (o o' : Outcome) : Prop where
  detection : o.detection = o'.detection
  copies : o.copiesReplaced = o'.copiesReplaced
  fills : o.fillsReplaced = o'.fillsReplaced
  idle : o.isNoop = true → o.output = source ∧ o'.output = source
  output : o.isNoop = false → ∃ ts layout names names', tokenize source = .ok ts ∧
    Layout.ofTokens ts = .ok layout ∧
      Fills o (Slot.template ts layout) names ∧ Fills o' (Slot.template ts layout) names'

/-- Two runs over a source end in the same way. -/
inductive Alike (source : String) : Except PassError Outcome → Except PassError Outcome → Prop where
  | ok {o o' : Outcome} : SameButNames source o o' → Alike source (.ok o) (.ok o')
  | error (e : PassError) : Alike source (.error e) (.error e)

namespace Replaced

variable {config : Config} {source : String} {o : Outcome} {ts : List Token} {layout : Layout}
  {rs : List Replacement} {front block back : List Lexeme}

theorem isNoop_eq_false (p : Replaced config source o ts layout rs front block back) :
    o.isNoop = false := by
  obtain ⟨r, hr⟩ := List.exists_mem_of_ne_nil rs p.nonempty
  have hop : r.op ∈ o.detection.ops := p.kinds ▸ List.mem_map_of_mem hr
  exact (Detection.isEmpty_eq_false_iff _).2 ⟨r.op, Detection.mem_ops.1 hop⟩

/-- The anchor cuts the tokens of the module in two. -/
theorem meaning_parts (p : Replaced config source o ts layout rs front block back) :
    Token.meaning (ts.filter fun t => t.stop ≤ layout.anchor) = Lexeme.significant front ∧
      Token.meaning (ts.filter fun t => layout.anchor < t.stop) = Lexeme.significant back := by
  have hsize := p.tiles_source.size_pos
  rw [p.tokens, p.anchor, Token.filter_stop_le_placeAll hsize, Token.filter_lt_stop_placeAll hsize]
  exact ⟨Token.map_significant_placeAll .., Token.map_significant_placeAll ..⟩

/-- The names of the functions fill the slots that the module determines. -/
theorem exists_fills (hconfig : config.check = .ok ())
    (p : Replaced config source o ts layout rs front block back) :
    ∃ names, Fills o (Slot.template ts layout) names := by
  obtain ⟨names, hnames⟩ : ∃ names : Op → String, ∀ r ∈ rs, r.name = names r.op :=
    Replacement.exists_names (by rw [p.kinds]; exact o.detection.nodup_ops)
  have hnamed : ∀ r ∈ rs, ∃ op name, r = Replacement.named op name := fun r hr => by
    obtain ⟨op, name, hr, -⟩ := p.exists_named hconfig r hr
    exact ⟨op, name, hr⟩
  have hops (ls : List Lexeme) (hsub : ls ⊆ front ++ back) :
      ∀ l ∈ Lexeme.significant ls, (l.replacement? rs).map Replacement.op = l.op? := by
    intro l hl
    have hmem : l ∈ ts.map Token.toLexeme := by
      rw [p.tokens, Token.map_toLexeme_placeAll]
      exact hsub (List.mem_filter.1 hl).1
    obtain ⟨t, ht, rfl⟩ := List.mem_map.1 hmem
    exact p.op_replacement? t ht
  obtain ⟨out, hout, hsame⟩ := Lexeme.tokenize_of_tiles (p.tiles_output hconfig)
  refine ⟨names, ?_, out, by rw [p.output, hout], ?_⟩
  · rw [p.injected, ← p.kinds, List.map_map]
    exact List.map_congr_left hnames
  · obtain ⟨hfront, hback⟩ := p.meaning_parts
    rw [p.meaning_output hsame, Slot.template, List.map_append, List.map_append, hfront, hback,
      Slot.map_fill_calls hnames (hops front (by simp)),
      Slot.map_fill_calls hnames (hops back (by simp)), ← p.detected, ← p.kinds,
      Slot.map_fill_flatMap_function hnames hnamed]

/-- Two runs that replace the same instructions differ in names alone. -/
theorem sameButNames {config' : Config} {o' : Outcome} {rs' : List Replacement}
    {front' block' back' : List Lexeme} (hconfig : config.check = .ok ())
    (hconfig' : config'.check = .ok ())
    (p : Replaced config source o ts layout rs front block back)
    (p' : Replaced config' source o' ts layout rs' front' block' back') :
    SameButNames source o o' := by
  refine ⟨by rw [p.detected, p'.detected], ?_, ?_, fun hnoop => ?_, fun _ => ?_⟩
  · rw [p.copies, p'.copies, p.countP_op?, p'.countP_op?]
  · rw [p.fills, p'.fills, p.countP_op?, p'.countP_op?]
  · rw [p.isNoop_eq_false] at hnoop
    cases hnoop
  · obtain ⟨names, hnames⟩ := p.exists_fills hconfig
    obtain ⟨names', hnames'⟩ := p'.exists_fills hconfig'
    exact ⟨ts, layout, names, names', p.tokenized, p.analysed, hnames, hnames'⟩

end Replaced

/-- The configuration changes nothing but names and trivia: a run over a source succeeds under all
configurations without faults or fails under all of them, then with the same error at the same place.
If it succeeds, it has found and done the same, and the outputs are the same but for the names. -/
theorem run_renamed {config config' : Config} (hconfig : config.check = .ok ())
    (hconfig' : config'.check = .ok ()) (source : String) :
    Alike source (run config source) (run config' source) := by
  cases stage source with
  | idle hidle =>
    rw [run_of_detect?_eq_none hidle, run_of_detect?_eq_none hidle]
    exact .ok ⟨rfl, rfl, rfl, fun _ => ⟨rfl, rfl⟩, fun hfound => by cases hfound⟩
  | lexemes hmay herror =>
    rw [run_of_tokenize_eq_error hmay herror, run_of_tokenize_eq_error hmay herror]
    exact .error _
  | layout htokens hfound herror =>
    rw [run_of_ofTokens_eq_error htokens hfound herror, run_of_ofTokens_eq_error htokens hfound herror]
    exact .error _
  | @replacement ts layout htokens hfound hlayout =>
    obtain ⟨front, block, back, s⟩ := exists_splice hconfig htokens hlayout (Detection.scan ts)
    have hwritable : ∀ r ∈ Replacement.forDetection (Detection.scan ts) config' layout.functionNames,
        r.function.isWritable = true := functions_isWritable hconfig'
    obtain ⟨block', s'⟩ := s.exists_other hwritable (config'.isIndent_indent hconfig')
    have hne {c : Config} :
        Replacement.forDetection (Detection.scan ts) c layout.functionNames ≠ [] :=
      functions_ne_nil hfound
    have hops : (Replacement.forDetection (Detection.scan ts) config layout.functionNames).map
        Replacement.op =
          (Replacement.forDetection (Detection.scan ts) config' layout.functionNames).map
            Replacement.op := by
      rw [Replacement.map_op_forDetection, Replacement.map_op_forDetection]
    have hsame := s.refused?_enlarged_eq s' hne hops fun p => by
      rw [after_insertedText_forDetection hconfig hne, after_insertedText_forDetection hconfig' hne]
    rcases run_of_splice htokens hfound hlayout rfl s with ⟨e, hrefused, hrun⟩ | ⟨o, hnone, hrun, p⟩
    · rcases run_of_splice htokens hfound hlayout rfl s' with ⟨e', hrefused', hrun'⟩ | ⟨_, hnone', -, -⟩
      · rw [hsame, hrefused'] at hrefused
        obtain rfl := Option.some.inj hrefused
        rw [hrun, hrun']
        exact .error _
      · rw [hsame, hnone'] at hrefused
        cases hrefused
    · rcases run_of_splice htokens hfound hlayout rfl s' with ⟨e', hrefused', -⟩ | ⟨o', -, hrun', p'⟩
      · rw [hsame, hrefused'] at hnone
        cases hnone
      · rw [hrun, hrun']
        exact .ok (p.sameButNames hconfig hconfig' p')

theorem run_renamed_copy :
    Config.check ⟨"copy_bytes", "memset", "\t"⟩ = .ok () ∧
      ∃ o o', run {} "(module(func memory.copy 0(;;)0x0))" = .ok o ∧
        run ⟨"copy_bytes", "memset", "\t"⟩ "(module(func memory.copy 0(;;)0x0))" = .ok o' ∧
          SameButNames "(module(func memory.copy 0(;;)0x0))" o o' := by
  have hconfig : Config.check {} = .ok () := rfl
  have hconfig' : Config.check ⟨"copy_bytes", "memset", "\t"⟩ = .ok () := rfl
  obtain ⟨o, hrun, -⟩ := exists_run_copy
  have halike := run_renamed hconfig hconfig' "(module(func memory.copy 0(;;)0x0))"
  rw [hrun] at halike
  generalize run ⟨"copy_bytes", "memset", "\t"⟩ _ = result at halike
  cases halike with
  | ok hsame => exact ⟨hconfig', o, _, hrun, rfl, hsame⟩

end Pass

end BulkMemory
