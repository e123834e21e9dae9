import BulkMemory.Proofs.Function.Forms

/-!
# What the text of a function reads as

An instruction on one line reads as its forms in front of anything (`Instr.reads_inline`), its lines
do so in front of a line break (`Instr.reads_outline`), and with the header this gives the text of a
function (`Function.reads_render`).
-/

namespace BulkMemory
set_option autoImplicit false

open Lexeme Form

/-! ### Operands on one line -/

namespace Lexeme

/-- Texts one behind the other, each with a blank in front. -/
def spaced (texts : List String) : List Char := (String.join (texts.map (" " ++ ·))).toList

theorem delimited_spaced {rest : List Char} (h : Delimited rest) (texts : List String) :
    Delimited (spaced texts ++ rest) := by
  cases texts with
  | nil => simpa [spaced] using h
  | cons t ts =>
    intro c hc
    obtain rfl : ' ' = c := by simpa [spaced] using hc
    decide

/-- Texts with the forms that each of them reads as. -/
theorem reads_spaced {ps : List (String × List Form)}
    (h : ∀ p ∈ ps, Reads Delimited p.1.toList (lexemesAll p.2)) :
    Reads Delimited (spaced (ps.map Prod.fst)) (lexemesAll (ps.flatMap Prod.snd)) := by
  induction ps with
  | nil => exact .nil
  | cons p ps ih =>
    have hp := reads_space.append (h p List.mem_cons_self) fun _ _ => trivial
    have hrest := ih fun q hq => h q (List.mem_cons_of_mem p hq)
    have hall := hp.append hrest fun _ hfit => delimited_spaced hfit _
    simpa [spaced] using hall

variable {hs : List Lexeme}

/-- Words behind an opening parenthesis, and operands behind them. -/
theorem reads_opened (h : ∀ l ∈ hs, l.IsWord) (hne : hs ≠ []) (ps : List (String × List Form))
    (hps : ∀ p ∈ ps, Reads Delimited p.1.toList (lexemesAll p.2)) :
    Reads Delimited (('(' :: (row hs).toList) ++ spaced (ps.map Prod.fst))
      (opening :: (hs ++ lexemesAll (ps.flatMap Prod.snd))) := by
  have hopened := reads_opening.append (reads_row h) fun rest _ hhead => by
    obtain ⟨k, ks, rfl⟩ := List.exists_cons_of_ne_nil hne
    obtain ⟨c, cs, hcs⟩ := List.exists_cons_of_ne_nil (h k List.mem_cons_self).ne_nil
    have hc := (h k List.mem_cons_self).plain c (by rw [hcs]; exact List.mem_cons_self)
    have hrow : (row (k :: ks)).toList.head? = some c := by
      cases ks <;> simp [row, hcs]
    rw [List.head?_append, hrow, Option.some_or, Option.some.injEq] at hhead
    rw [hhead] at hc
    exact absurd hc (by decide)
  exact hopened.append (reads_spaced hps) fun _ hrest => delimited_spaced hrest _

/-- A form on one line may stand in front of anything. -/
theorem reads_closed (h : ∀ l ∈ hs, l.IsWord) (hne : hs ≠ []) (ps : List (String × List Form))
    (hps : ∀ p ∈ ps, Reads Delimited p.1.toList (lexemesAll p.2)) :
    Reads (fun _ => True) ((('(' :: (row hs).toList) ++ spaced (ps.map Prod.fst)) ++ [')'])
      (headed hs (ps.flatMap Prod.snd)).lexemes := by
  have hall := (reads_opened h hne ps hps).append reads_closing fun rest _ c hc => by
    obtain rfl : ')' = c := by simpa using hc
    decide
  rw [lexemes_headed]
  simpa using hall

end Lexeme

/-! ### Instructions -/

namespace Instr

variable {i : Instr}

theorem reads_folded (hi : i.isWritable = true) (hne : i.headLexemes ≠ [])
    (ps : List (String × List Form))
    (hps : ∀ p ∈ ps, Lexeme.Reads (fun _ => True) p.1.toList (lexemesAll p.2)) :
    Lexeme.Reads (fun _ => True) (folded i.head (ps.map Prod.fst)).toList
      (lexemesAll [headed i.headLexemes (ps.flatMap Prod.snd)]) := by
  have hall := reads_closed (isWord_headLexemes hi) hne ps fun p hp =>
    (hps p hp).everywhere
  rw [lexemesAll_singleton]
  simpa [folded, head_eq_row hne, spaced] using hall

/-- An instruction on one line reads as its form. -/
theorem reads_inline : (i : Instr) → i.isWritable = true → (text : String) →
    i.inline? = some text → Lexeme.Reads (fun _ => True) text.toList (lexemesAll i.forms)
  | localGet name, hi, text, h | const value, hi, text, h | br label, hi, text, h => by
    cases h
    simpa [forms] using reads_folded hi (by simp [headLexemes]) [] (by simp)
  | localSet name value, hi, text, h | brIf label value, hi, text, h => by
    obtain ⟨operand, hoperand, rfl⟩ := Option.map_eq_some_iff.1 h
    have hvalue : value.isWritable = true := by
      simp only [isWritable, Bool.and_eq_true] at hi
      exact hi.2
    have hread := reads_inline value hvalue operand hoperand
    simpa [forms] using reads_folded hi (by simp [headLexemes]) [(operand, value.forms)]
      (by simpa using hread)
  | eqz value, hi, text, h | load8U value, hi, text, h => by
    obtain ⟨operand, hoperand, rfl⟩ := Option.map_eq_some_iff.1 h
    have hvalue : value.isWritable = true := by simpa only [isWritable] using hi
    have hread := reads_inline value hvalue operand hoperand
    simpa [forms] using reads_folded hi (by simp [headLexemes]) [(operand, value.forms)]
      (by simpa using hread)
  | binary op lhs rhs, hi, text, h => by
    rw [inline?] at h
    split at h
    · next left right hleft hright =>
      cases h
      have hboth : lhs.isWritable = true ∧ rhs.isWritable = true := by
        simpa only [isWritable, Bool.and_eq_true] using hi
      have hreadl := reads_inline lhs hboth.1 left hleft
      have hreadr := reads_inline rhs hboth.2 right hright
      simpa [forms] using reads_folded hi (by simp [headLexemes])
        [(left, lhs.forms), (right, rhs.forms)] (by simpa using ⟨hreadl, hreadr⟩)
    · cases h

variable {indent : String}

/-- A form on several lines. -/
theorem reads_spread (hindent : Config.isIndent indent = true) {hs : List Lexeme}
    (hwords : ∀ l ∈ hs, l.IsWord) (hne : hs ≠ []) {inner : List Outline} {fs : List Form}
    (h : Outline.Reads indent inner (lexemesAll fs)) :
    Outline.Reads indent (spread (row hs) inner) (lexemesAll [headed hs fs]) := by
  have hhead := reads_opened hwords hne [] (by simp)
  have hopening : Lexeme.Reads Delimited ("(" ++ row hs).toList (opening :: hs) := by
    simpa [spaced] using hhead
  have hall := Outline.Reads.group hindent hopening h
  rw [lexemesAll_singleton, lexemes_headed]
  simpa [spread] using hall

theorem reads_spreadUnless (hindent : Config.isIndent indent = true) (hi : i.isWritable = true)
    (hne : i.headLexemes ≠ []) {inner : List Outline} (fs : List Form)
    (hforms : i.forms = [headed i.headLexemes fs])
    (h : Outline.Reads indent inner (lexemesAll fs)) :
    Outline.Reads indent (spreadUnless i.inline? i.head inner) (lexemesAll i.forms) := by
  cases htext : i.inline? with
  | some text =>
    exact .line hindent ((reads_inline i hi text htext).everywhere)
  | none =>
    rw [head_eq_row hne, hforms]
    exact reads_spread hindent (isWord_headLexemes hi) hne h

theorem isWord_branching {word : String} (h : word = "if" ∨ word = "then" ∨ word = "else") :
    ∀ l ∈ [(⟨.keyword, word⟩ : Lexeme)], l.IsWord := by
  intro l hl
  rw [List.mem_singleton.1 hl]
  rcases h with rfl | rfl | rfl <;> exact isWord_keyword (by decide) (by decide)

/-- The branches of a conditional; an empty else branch leaves no line. -/
theorem reads_branches (hindent : Config.isIndent indent = true) {thenBody elseBody : List Instr}
    (ht : Outline.Reads indent (outlineAll thenBody) (lexemesAll (formsAll thenBody)))
    (he : Outline.Reads indent (outlineAll elseBody) (lexemesAll (formsAll elseBody))) :
    Outline.Reads indent
      (spread "then" (outlineAll thenBody) ++
        if elseBody.isEmpty then [] else spread "else" (outlineAll elseBody))
      (lexemesAll ([headed [⟨.keyword, "then"⟩] (formsAll thenBody)] ++
        if elseBody.isEmpty then [] else [headed [⟨.keyword, "else"⟩] (formsAll elseBody)])) := by
  rw [lexemesAll_append]
  apply Outline.Reads.append
  · exact reads_spread hindent (isWord_branching (.inr (.inl rfl))) (by simp) ht
  · split
    · exact .nil
    · exact reads_spread hindent (isWord_branching (.inr (.inr rfl))) (by simp) he

/-- A conditional begins with its condition, on the same line if that is short. -/
theorem reads_ifElse (hindent : Config.isIndent indent = true) {cond : Instr}
    {thenBody elseBody : List Instr} (hcond : cond.isWritable = true)
    (hc : Outline.Reads indent cond.outline (lexemesAll cond.forms))
    (ht : Outline.Reads indent (outlineAll thenBody) (lexemesAll (formsAll thenBody)))
    (he : Outline.Reads indent (outlineAll elseBody) (lexemesAll (formsAll elseBody))) :
    Outline.Reads indent (ifElse cond thenBody elseBody).outline
      (lexemesAll (ifElse cond thenBody elseBody).forms) := by
  have hclosing : Lexeme.Reads EndsLine ")".toList [closing] := reads_closing.everywhere
  have hbranches := (reads_branches hindent ht he).nested.append (.line hindent hclosing)
  have hopening (ps : List (String × List Form))
      (hps : ∀ p ∈ ps, Lexeme.Reads Delimited p.1.toList (lexemesAll p.2)) :=
    (reads_opened (isWord_branching (.inl rfl)) (by simp) ps hps).mono fun _ => EndsLine.delimited
  rw [forms, lexemesAll_singleton, lexemes_headed]
  cases htext : cond.inline? with
  | some text =>
    have hread := reads_inline cond hcond text htext
    have hline : Lexeme.Reads EndsLine ("(if " ++ text).toList
        (opening :: ⟨.keyword, "if"⟩ :: lexemesAll cond.forms) := by
      simpa [spaced, row] using hopening [(text, cond.forms)] (by simpa using hread.everywhere)
    have hall := (Outline.Reads.line hindent hline).append hbranches
    simpa [outline, htext, headLexemes] using hall
  | none =>
    have hline : Lexeme.Reads EndsLine "(if".toList [opening, ⟨.keyword, "if"⟩] := by
      simpa [spaced, row] using hopening [] (by simp)
    have hall := (Outline.Reads.line hindent hline).append (hc.nested.append hbranches)
    simpa [outline, htext, headLexemes] using hall

mutual

/-- The lines of an instruction read as its form. -/
theorem reads_outline (hindent : Config.isIndent indent = true) : (i : Instr) →
    i.isWritable = true → Outline.Reads indent i.outline (lexemesAll i.forms)
  | localGet name, hi | const value, hi | br label, hi => by
    simpa only [outline] using
      reads_spreadUnless hindent hi (by simp [headLexemes]) [] (by rw [forms]) .nil
  | localSet name value, hi | brIf label value, hi => by
    have hvalue : value.isWritable = true := by
      simp only [isWritable, Bool.and_eq_true] at hi
      exact hi.2
    simpa only [outline] using
      reads_spreadUnless hindent hi (by simp [headLexemes]) value.forms (by rw [forms])
        (reads_outline hindent value hvalue)
  | eqz value, hi | load8U value, hi => by
    have hvalue : value.isWritable = true := by simpa only [isWritable] using hi
    simpa only [outline] using
      reads_spreadUnless hindent hi (by simp [headLexemes]) value.forms (by rw [forms])
        (reads_outline hindent value hvalue)
  | binary op lhs rhs, hi => by
    have hboth : lhs.isWritable = true ∧ rhs.isWritable = true := by
      simpa only [isWritable, Bool.and_eq_true] using hi
    have hread := (reads_outline hindent lhs hboth.1).append (reads_outline hindent rhs hboth.2)
    rw [← lexemesAll_append] at hread
    simpa only [outline] using
      reads_spreadUnless hindent hi (by simp [headLexemes]) _ (by rw [forms]) hread
  | store8 addr value, hi => by
    have hboth : addr.isWritable = true ∧ value.isWritable = true := by
      simpa only [isWritable, Bool.and_eq_true] using hi
    have hread := (reads_outline hindent addr hboth.1).append (reads_outline hindent value hboth.2)
    rw [← lexemesAll_append] at hread
    have hne : (store8 addr value).headLexemes ≠ [] := by simp [headLexemes]
    rw [outline, forms, head_eq_row hne]
    exact reads_spread hindent (isWord_headLexemes hi) hne hread
  | block label body, hi | loop label body, hi => by
    have hbody : areWritable body = true := by
      simp only [isWritable, Bool.and_eq_true] at hi
      exact hi.2
    have hread := reads_outlineAll hindent body hbody
    rw [outline, forms, head_eq_row (by simp [headLexemes])]
    exact reads_spread hindent (isWord_headLexemes hi) (by simp [headLexemes]) hread
  | ifElse cond thenBody elseBody, hi => by
    simp only [isWritable, Bool.and_eq_true] at hi
    exact reads_ifElse hindent hi.1 (reads_outline hindent cond hi.1)
      (reads_outlineAll hindent thenBody hi.2.1) (reads_outlineAll hindent elseBody hi.2.2)
  | comment text, hi => by
    rw [outline, forms]
    exact .line hindent (reads_comment (by simpa [isWritable] using hi))

/-- The lines of consecutive instructions read as their forms. -/
theorem reads_outlineAll (hindent : Config.isIndent indent = true) : (is : List Instr) →
    areWritable is = true → Outline.Reads indent (outlineAll is) (lexemesAll (formsAll is))
  | [], _ => .nil
  | i :: is, his => by
    simp only [areWritable, Bool.and_eq_true] at his
    rw [outlineAll, formsAll, lexemesAll_append]
    exact (reads_outline hindent i his.1).append (reads_outlineAll hindent is his.2)

end

end Instr

/-! ### Functions -/

namespace Function

variable {indent : String}

/-- The declaration of a parameter or of a local on one line. -/
theorem reads_declaration {name : String} (word : String) (hword : (⟨.keyword, word⟩ : Lexeme).IsWord)
    (hname : isIdentifier name = true) :
    Lexeme.Reads (fun _ => True) ("(" ++ word ++ " $" ++ name ++ " i32)").toList
      (lexemesAll [declaration word name]) := by
  have hwords : ∀ l ∈ [(⟨.keyword, word⟩ : Lexeme), named name, ⟨.keyword, "i32"⟩], l.IsWord := by
    simp only [List.mem_cons, List.not_mem_nil, or_false, forall_eq_or_imp, forall_eq]
    exact ⟨hword, isWord_named hname, isWord_keyword (by decide) (by decide)⟩
  have hall := reads_closed hwords (by simp) [] (by simp)
  rw [lexemesAll_singleton]
  simpa [spaced, row, named, identifier, declaration] using hall

theorem reads_header {f : Function} (hname : isIdentifier f.name = true)
    (hparams : ∀ p ∈ f.params, isIdentifier p = true) :
    Lexeme.Reads Delimited f.header.toList
      (opening :: ⟨.keyword, "func"⟩ :: named f.name ::
        lexemesAll (f.params.map (declaration "param"))) := by
  have hwords : ∀ l ∈ [(⟨.keyword, "func"⟩ : Lexeme), named f.name], l.IsWord := by
    simp only [List.mem_cons, List.not_mem_nil, or_false, forall_eq_or_imp, forall_eq]
    exact ⟨isWord_keyword (by decide) (by decide), isWord_named hname⟩
  have hps : ∀ p ∈ f.params.map fun p => ("(param $" ++ p ++ " i32)", [declaration "param" p]),
      Lexeme.Reads Delimited p.1.toList (lexemesAll p.2) := by
    intro p hp
    obtain ⟨name, hmem, rfl⟩ := List.mem_map.1 hp
    have hdeclared := reads_declaration "param" (isWord_keyword (by decide) (by decide))
      (hparams name hmem)
    simpa using hdeclared.everywhere
  have hall := reads_opened hwords (by simp) _ hps
  simpa [header, spaced, row, named, identifier, Function.comp_def, List.flatMap_map,
    ← List.map_eq_flatMap] using hall

theorem reads_locals (hindent : Config.isIndent indent = true) {names : List String}
    (h : ∀ l ∈ names, isIdentifier l = true) :
    Outline.Reads indent (names.map fun l => Outline.line ("(local $" ++ l ++ " i32)"))
      (lexemesAll (names.map (declaration "local"))) := by
  induction names with
  | nil => exact .nil
  | cons name names ih =>
    have hdeclared := reads_declaration "local" (isWord_keyword (by decide) (by decide))
      (h name List.mem_cons_self)
    have hread : Lexeme.Reads EndsLine ("(local $" ++ name ++ " i32)").toList
        (lexemesAll [declaration "local" name]) := by
      simpa using hdeclared.everywhere
    have hline := Outline.Reads.line hindent hread
    have hall := hline.append (ih fun l hl => h l (List.mem_cons_of_mem name hl))
    rw [← lexemesAll_append] at hall
    exact hall

theorem header_ne_empty (f : Function) : f.header ≠ "" := by
  simp [header, ← String.toList_inj]

/-- The text of a function reads as its form, under any indentation. -/
theorem reads_render {f : Function} (h : f.isWritable = true)
    (hindent : Config.isIndent indent = true) (depth : Nat) :
    Lexeme.Reads EndsLine (f.render indent depth).toList f.form.lexemes := by
  simp only [isWritable, Bool.and_eq_true, List.all_append, List.all_eq_true] at h
  obtain ⟨⟨hname, hparams, hlocals⟩, hbody⟩ := h
  have hheader := reads_header hname hparams
  have hinner := (reads_locals hindent hlocals).append (Instr.reads_outlineAll hindent f.body hbody)
  have hall := (Outline.Reads.group hindent hheader hinner).render f.header_ne_empty depth
  rw [render, outline]
  simpa [form, lexemes_headed] using hall

end Function

end BulkMemory
