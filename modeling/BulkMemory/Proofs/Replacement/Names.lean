import BulkMemory.Proofs.Function.Reads
import BulkMemory.Proofs.Occurrence.Relex

/-!
# The replacements of a run

A run makes one replacement for each instruction that `Detection.scan` finds, and it finds those
that occur (`Detection.has_scan`), so an instruction of the module has a replacement of its own kind
(`Replacement.op_replacement?`). Under a configuration without faults the functions may be written.
-/

namespace BulkMemory
set_option autoImplicit false

/-! ### What the configuration promises -/

namespace Config

variable {config : Config}

theorem isIdentifier_baseName (h : config.check = .ok ()) (op : Op) :
    isIdentifier (config.baseName op) = true := by
  rw [check] at h
  split at h
  · cases h
  · next hnone =>
    have hnames := List.find?_eq_none.1 hnone
    cases op with
    | copy => simpa [baseName] using hnames config.copyName (by simp)
    | fill => simpa [baseName] using hnames config.fillName (by simp)

theorem isIndent_indent (h : config.check = .ok ()) : isIndent config.indent = true := by
  rw [check] at h
  split at h
  · cases h
  · split at h
    · assumption
    · cases h

end Config

theorem isIdentifier_append {a b : String} (ha : isIdentifier a = true)
    (hb : b.toList.all isIdentifierChar = true) : isIdentifier (a ++ b) = true := by
  obtain ⟨hne, hall⟩ : a ≠ "" ∧ ∀ c ∈ a.toList, isIdentifierChar c = true := by
    simpa [isIdentifier] using ha
  simp only [isIdentifier, Bool.and_eq_true, Bool.not_eq_true', String.isEmpty_eq_false_iff,
    String.toList_append, List.all_append, List.all_eq_true]
  exact ⟨by simp [hne], hall, List.all_eq_true.1 hb⟩

/-- A suffix of an underscore and digits keeps an identifier one. -/
theorem isIdentifier_nameCandidates {base : String} (h : isIdentifier base = true) {count : Nat} :
    ∀ name ∈ nameCandidates base count, isIdentifier name = true := by
  intro name hname
  rcases List.mem_cons.1 hname with rfl | hname
  · exact h
  · obtain ⟨n, -, rfl⟩ := List.mem_map.1 hname
    refine isIdentifier_append (isIdentifier_append h (by decide)) (List.all_eq_true.2 fun c hc => ?_)
    have hdigit : c.isDigit = true :=
      Nat.isDigit_of_mem_toDigits (b := 10) (n := n + 1) (by decide) (by decide) (by simpa using hc)
    simp [isIdentifierChar, Char.isAlphanum, hdigit]

theorem isIdentifier_freshName {base : String} (h : isIdentifier base = true)
    (taken : List String) : isIdentifier (freshName base taken) = true := by
  rw [freshName]
  cases hfind : (nameCandidates base taken.length).find? fun name =>
      !taken.contains (identifier name) with
  | none => exact h
  | some name => exact isIdentifier_nameCandidates h name (List.mem_of_find?_eq_some hfind)

/-! ### The detection of instructions -/

namespace Detection

theorem has_add (d : Detection) (op op' : Op) : (d.add op).has op' = (op == op' || d.has op') := by
  cases op <;> cases op' <;> rfl

/-- The scan stops early only when nothing is left to find. -/
theorem has_scanFrom (ts : List Token) (found : Detection) (op : Op) :
    (scanFrom found ts).has op = (found.has op || ts.any fun t => t.op? == some op) := by
  induction ts generalizing found with
  | nil => simp [scanFrom]
  | cons t ts ih =>
    rw [scanFrom]
    split
    · next hboth =>
      rw [Bool.and_eq_true] at hboth
      have hop : found.has op = true := by
        cases op
        · exact hboth.1
        · exact hboth.2
      rw [hop, Bool.true_or]
    · cases htoken : t.op? with
      | none => simp [ih, htoken]
      | some op' => simp [ih, htoken, has_add, Bool.or_left_comm, Bool.or_assoc]

theorem has_scan (ts : List Token) (op : Op) :
    (scan ts).has op = ts.any fun t => t.op? == some op := by
  rw [scan, has_scanFrom]
  cases op <;> rfl

theorem isEmpty_eq_false_iff (d : Detection) : d.isEmpty = false ↔ ∃ op, d.has op = true := by
  constructor
  · intro h
    cases hcopy : d.copy with
    | true => exact ⟨.copy, hcopy⟩
    | false => exact ⟨.fill, by simpa [isEmpty, has, hcopy] using h⟩
  · rintro ⟨op, hop⟩
    cases op <;> simp_all [has, isEmpty]

theorem isEmpty_scan_eq_false_iff {ts : List Token} :
    (scan ts).isEmpty = false ↔ ∃ t ∈ ts, ∃ op, t.op? = some op := by
  simp only [isEmpty_eq_false_iff, has_scan, List.any_eq_true, beq_iff_eq]
  constructor
  · rintro ⟨op, t, ht, hop⟩
    exact ⟨t, ht, op, hop⟩
  · rintro ⟨t, ht, op, hop⟩
    exact ⟨op, t, ht, hop⟩

theorem isEmpty_scan_iff {ts : List Token} :
    (scan ts).isEmpty = true ↔ ∀ t ∈ ts, t.op? = none := by
  rw [← Bool.not_eq_false, isEmpty_scan_eq_false_iff]
  simp [Option.eq_none_iff_forall_ne_some]

theorem mem_ops {d : Detection} {op : Op} : op ∈ d.ops ↔ d.has op = true := by
  simp [ops, Op.mem_all]

end Detection

/-! ### One replacement for each instruction -/

theorem Lexeme.op?_eq_some {l : Lexeme} {op : Op} (h : l.op? = some op) :
    l.kind = .keyword ∧ l.text = op.mnemonic := by
  rw [op?] at h
  split at h
  · next hkind => exact ⟨hkind, (Op.mnemonic_eq_of_ofMnemonic? h).symm⟩
  · cases h

theorem Lexeme.op?_eq_some_iff {l : Lexeme} {op : Op} :
    l.op? = some op ↔ l.isKeyword op.mnemonic = true := by
  rw [isKeyword, Bool.and_eq_true, beq_iff_eq, beq_iff_eq]
  refine ⟨op?_eq_some, fun h => ?_⟩
  rw [op?, if_pos h.1, h.2, Op.ofMnemonic?_mnemonic]

theorem Lexeme.op?_eq_none_iff {l : Lexeme} :
    l.op? = none ↔ ∀ op : Op, l.isKeyword op.mnemonic = false := by
  simp only [Option.eq_none_iff_forall_ne_some, ne_eq, op?_eq_some_iff, Bool.not_eq_true]

theorem Lexeme.op?_of_trivia {l : Lexeme} (h : l.isTrivia = true) : l.op? = none := by
  cases hop : l.op? with
  | none => rfl
  | some op => simp [isTrivia, (op?_eq_some hop).1, Kind.isTrivia] at h

/-- A lexeme has the first replacement for the instruction that it is. -/
theorem Lexeme.replacement?_eq (rs : List Replacement) (l : Lexeme) :
    l.replacement? rs = l.op?.bind fun op => rs.find? fun r => r.op == op := by
  cases hop : l.op? with
  | some op =>
    obtain ⟨hkind, htext⟩ := op?_eq_some hop
    have hmnemonic (r : Replacement) : (op.mnemonic == r.op.mnemonic) = (r.op == op) := by
      cases op <;> cases r.op <;> decide
    simp only [replacement?, hkind, htext, hmnemonic, if_true, Option.bind_some]
  | none =>
    rw [replacement?, Option.bind_none]
    split
    · next hkind =>
      refine List.find?_eq_none.2 fun r _ htext => ?_
      rw [op?, if_pos hkind, beq_iff_eq.1 htext, Op.ofMnemonic?_mnemonic] at hop
      cases hop
    · rfl

namespace Replacement

variable {config : Config} {taken : List String}

@[simp] theorem op_named (op : Op) (name : String) : (named op name).op = op := by
  cases op <;> rfl

@[simp] theorem name_named (op : Op) (name : String) : (named op name).name = name := by
  cases op <;> rfl

theorem map_op_forOps (config : Config) (taken : List String) (ops : List Op) :
    (forOps config taken ops).map op = ops := by
  induction ops generalizing taken with
  | nil => rfl
  | cons op ops ih => simp [forOps, ih]

theorem map_op_forDetection (detection : Detection) (config : Config) (taken : List String) :
    (forDetection detection config taken).map op = detection.ops := map_op_forOps ..

/-- Every replacement is made under a name of its own that may be written. -/
theorem exists_named_of_mem_forOps (h : config.check = .ok ()) {ops : List Op} {r : Replacement}
    (hr : r ∈ forOps config taken ops) :
    ∃ op name, r = named op name ∧ isIdentifier name = true := by
  induction ops generalizing taken with
  | nil => cases hr
  | cons op ops ih =>
    rcases List.mem_cons.1 hr with rfl | hr
    · exact ⟨op, _, rfl, isIdentifier_freshName (config.isIdentifier_baseName h op) taken⟩
    · exact ih hr

/-- Under a name that may be written, the functions may be written. -/
theorem isWritable_named {op : Op} {name : String} (h : isIdentifier name = true) :
    (named op name).function.isWritable = true := by
  have hname : (named op name).function = { (named op "").function with name } := by
    cases op <;> rfl
  have hrest : (((named op "").function.params ++ (named op "").function.locals).all isIdentifier &&
      Instr.areWritable (named op "").function.body) = true := by
    cases op <;> decide
  rw [hname, Function.isWritable, Bool.and_assoc, Bool.and_eq_true]
  exact ⟨h, hrest⟩

/-- A token of the module has a replacement if and only if it is an instruction, and then one of its
own kind. -/
theorem op_replacement? {ts : List Token} {t : Token} (ht : t ∈ ts) (config : Config)
    (taken : List String) :
    (t.replacement? (forDetection (Detection.scan ts) config taken)).map op = t.op? := by
  rw [Lexeme.replacement?_eq]
  cases hop : t.op? with
  | none => rfl
  | some op =>
    have hhas : (Detection.scan ts).has op = true := by
      rw [Detection.has_scan]
      exact List.any_eq_true.2 ⟨t, ht, by simp [hop]⟩
    obtain ⟨r, hr, hsame⟩ : ∃ r ∈ forDetection (Detection.scan ts) config taken, r.op = op := by
      have hmem := Detection.mem_ops.2 hhas
      rw [← map_op_forDetection (Detection.scan ts) config taken] at hmem
      exact List.mem_map.1 hmem
    rw [Option.bind_some]
    cases hfind : (forDetection (Detection.scan ts) config taken).find? fun r => r.op == op with
    | none => exact absurd hsame (by simpa using List.find?_eq_none.1 hfind r hr)
    | some first => simpa using List.find?_some hfind

end Replacement

end BulkMemory
