import BulkMemory.Proofs.Replacement.Names
import BulkMemory.Pass

/-!
# Line breaks of the inserted functions

How many lines the inserted functions take depends on the kinds of these functions alone
(`count_insertedText`): the indentation breaks no line, and neither does a name. The last line ends
with a break, so whatever is behind the functions stands at a place that no setting has moved
(`after_insertedText`).
-/

namespace BulkMemory
set_option autoImplicit false

variable {indent : String}

namespace Outline

theorem count_margin (h : Config.isIndent indent = true) (depth : Nat) :
    (Writer.margin indent depth).toList.count '\n' = 0 := by
  refine List.count_eq_zero.2 fun hmem => ?_
  rcases eq_of_mem_margin h hmem with hc | hc <;> cases hc

/-- Indentation breaks no line. -/
theorem count_laid (h : Config.isIndent indent = true) (lines : List (Nat × String)) :
    (laid indent lines).toList.count '\n' = (laid "" lines).toList.count '\n' := by
  have hnone : Config.isIndent "" = true := rfl
  induction lines with
  | nil => simp
  | cons l lines ih =>
    have hl (i : String) : laid i (l :: lines) = laid i [l] ++ laid i lines := laid_append i [l] lines
    rw [hl, hl, String.toList_append, String.toList_append, List.count_append, List.count_append, ih]
    simp [laid, count_margin h, count_margin hnone]

end Outline

theorem count_of_isIdentifier {name : String} (h : isIdentifier name = true) :
    name.toList.count '\n' = 0 := by
  obtain ⟨-, hall⟩ : name ≠ "" ∧ ∀ c ∈ name.toList, isIdentifierChar c = true := by
    simpa [isIdentifier] using h
  refine List.count_eq_zero.2 fun hmem => ?_
  exact absurd (hall _ hmem) (by decide)

/-- Neither the name nor the indentation changes the number of lines of a function. -/
theorem Function.count_render {f : Function} (hname : isIdentifier f.name = true)
    (hindent : Config.isIndent indent = true) (depth : Nat) :
    (f.render indent depth).toList.count '\n' =
      ({ f with name := "" }.render "" depth).toList.count '\n' := by
  have hnone : Config.isIndent "" = true := rfl
  rw [render, outline, Outline.render_cons f.header_ne_empty, render, outline,
    Outline.render_cons (header_ne_empty _)]
  simp only [String.toList_append, List.count_append, Outline.count_margin hindent, Outline.count_margin hnone,
    Outline.count_laid hindent]
  simp [header, count_of_isIdentifier hname]

/-- The lines that the functions for some instructions take. -/
def lineBreaks (ops : List Op) (wrapped : Bool) : Nat :=
  (insertedText (ops.map fun op => .named op "") "" wrapped).toList.count '\n'

theorem insertedText_cons (r : Replacement) (rs : List Replacement) (indent : String)
    (wrapped : Bool) :
    insertedText (r :: rs) indent wrapped =
      "\n" ++ r.render indent wrapped.toNat ++ "\n" ++ insertedText rs indent wrapped := by
  simp [insertedText]

theorem count_insertedText {rs : List Replacement}
    (h : ∀ r ∈ rs, ∃ op name, r = .named op name ∧ isIdentifier name = true)
    (hindent : Config.isIndent indent = true) (wrapped : Bool) :
    (insertedText rs indent wrapped).toList.count '\n' =
      lineBreaks (rs.map Replacement.op) wrapped := by
  rw [lineBreaks]
  induction rs with
  | nil => rfl
  | cons r rs ih =>
    obtain ⟨op, name, rfl, hname⟩ := h r List.mem_cons_self
    have hrest := ih fun q hq => h q (List.mem_cons_of_mem _ hq)
    have hfunction : (Replacement.named op name).function.name = name := by cases op <;> rfl
    have hnone : { (Replacement.named op name).function with name := "" } =
        (Replacement.named op "").function := by cases op <;> rfl
    have hrender := Function.count_render (hfunction.symm ▸ hname) hindent wrapped.toNat
    rw [hnone] at hrender
    simp only [List.map_cons, Replacement.op_named, insertedText_cons, String.toList_append,
      List.count_append, hrest, Replacement.render, hrender]

/-- Behind the functions begins a line of its own. -/
theorem exists_insertedText_eq {rs : List Replacement} (hne : rs ≠ []) (indent : String)
    (wrapped : Bool) : ∃ cs, (insertedText rs indent wrapped).toList = cs ++ ['\n'] := by
  induction rs with
  | nil => exact absurd rfl hne
  | cons r rs ih =>
    rw [insertedText_cons]
    by_cases hrs : rs = []
    · subst hrs
      exact ⟨('\n' :: (r.render indent wrapped.toNat).toList), by simp [insertedText]⟩
    · obtain ⟨cs, hcs⟩ := ih hrs
      exact ⟨('\n' :: (r.render indent wrapped.toNat).toList) ++ '\n' :: cs, by simp [hcs]⟩

/-- Behind the functions stands a place that depends on their kinds alone. -/
theorem after_insertedText {rs : List Replacement}
    (h : ∀ r ∈ rs, ∃ op name, r = .named op name ∧ isIdentifier name = true) (hne : rs ≠ [])
    (hindent : Config.isIndent indent = true) (wrapped : Bool) (p : Position) :
    p.after (insertedText rs indent wrapped).toList =
      ⟨p.line + lineBreaks (rs.map Replacement.op) wrapped, 1⟩ := by
  obtain ⟨cs, hcs⟩ := exists_insertedText_eq hne indent wrapped
  rw [← count_insertedText h hindent, hcs, Position.after_concat_newline]

/-- The functions of a run end at the same place under every configuration. -/
theorem after_insertedText_forDetection {config : Config} (h : config.check = .ok ())
    {detection : Detection} {taken : List String}
    (hne : Replacement.forDetection detection config taken ≠ []) (wrapped : Bool) (p : Position) :
    p.after (insertedText (Replacement.forDetection detection config taken) config.indent
        wrapped).toList = ⟨p.line + lineBreaks detection.ops wrapped, 1⟩ := by
  have hnamed : ∀ r ∈ Replacement.forDetection detection config taken,
      ∃ op name, r = .named op name ∧ isIdentifier name = true := fun r hr =>
    Replacement.exists_named_of_mem_forOps h hr
  rw [after_insertedText hnamed hne (config.isIndent_indent h), Replacement.map_op_forDetection]

end BulkMemory
