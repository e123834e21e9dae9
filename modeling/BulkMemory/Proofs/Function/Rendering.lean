import BulkMemory.Proofs.Function.Reads
import BulkMemory.Proofs.Function.Recovery
import BulkMemory.Proofs.Layout.Balance

/-!
# Rendered text reads back

However a tree is laid out, the lexer finds the lexemes of its forms in the text, the parentheses are
balanced, and the tree is recovered from the lexemes without its comments
(`Instr.readsBack`, `Function.readsBack`). So trees without comments whose texts have the same lexemes
are the same tree (`render_reads_back`).
-/

namespace BulkMemory
set_option autoImplicit false

open Lexeme Form

/-! ### Forms of trees are proper -/

namespace Form

theorem isProper_headed {hs : List Lexeme} {items : List Form} (hhs : ∀ l ∈ hs, l.isParen = false)
    (hitems : areProper items = true) : (headed hs items).isProper = true := by
  have hhead : areProper (hs.map atom) = true := by
    refine areProper_of_forall fun f hf => ?_
    obtain ⟨l, hl, rfl⟩ := List.mem_map.1 hf
    rw [isProper, hhs l hl]
    rfl
  rw [headed, isProper, areProper_append, hhead, hitems]
  rfl

theorem areProper_singleton {f : Form} (h : f.isProper = true) : areProper [f] = true := by
  rw [areProper, h]
  rfl

end Form

namespace Instr

theorem isParen_headLexemes (i : Instr) : ∀ l ∈ i.headLexemes, l.isParen = false := by
  cases i <;> simp [headLexemes, isParen, named]

theorem areProper_headed (i : Instr) {fs : List Form} (h : areProper fs = true) :
    areProper [headed i.headLexemes fs] = true :=
  areProper_singleton (isProper_headed i.isParen_headLexemes h)

theorem areProper_branch (keyword : String) {fs : List Form} (h : areProper fs = true) :
    areProper [headed [⟨.keyword, keyword⟩] fs] = true :=
  areProper_singleton (isProper_headed (by simp [isParen]) h)

mutual

theorem areProper_forms : (i : Instr) → areProper i.forms = true
  | localGet _ | const _ | br _ => by
    rw [forms]
    exact areProper_headed _ rfl
  | localSet _ value | eqz value | load8U value | brIf _ value => by
    rw [forms]
    exact areProper_headed _ (areProper_forms value)
  | binary _ lhs rhs | store8 lhs rhs => by
    rw [forms]
    refine areProper_headed _ ?_
    rw [areProper_append, areProper_forms lhs, areProper_forms rhs]
    rfl
  | block _ body | loop _ body => by
    rw [forms]
    exact areProper_headed _ (areProper_formsAll body)
  | ifElse cond thenBody elseBody => by
    rw [forms]
    refine areProper_headed _ ?_
    rw [areProper_append, areProper_append, areProper_forms cond,
      areProper_branch "then" (areProper_formsAll thenBody)]
    split
    · rfl
    · rw [areProper_branch "else" (areProper_formsAll elseBody)]
      rfl
  | comment _ => rfl

theorem areProper_formsAll : (is : List Instr) → areProper (formsAll is) = true
  | [] => rfl
  | i :: is => by
    rw [formsAll, areProper_append, areProper_forms i, areProper_formsAll is]
    rfl

end

end Instr

theorem Function.isProper_form (f : Function) : f.form.isProper = true := by
  have hdeclared (keyword : String) (names : List String) :
      areProper (names.map (declaration keyword)) = true := by
    refine areProper_of_forall fun g hg => ?_
    obtain ⟨name, -, rfl⟩ := List.mem_map.1 hg
    exact isProper_headed (by simp [isParen, named]) rfl
  refine isProper_headed (by simp [isParen, named]) ?_
  rw [areProper_append, areProper_append, hdeclared, hdeclared, Instr.areProper_formsAll]
  rfl

/-! ### The text of a tree -/

/-- The lexer takes a text, what carries meaning in it are the given lexemes, and its parentheses are
balanced. -/
def IsTextOf (text : String) (ls : List Lexeme) : Prop :=
  ∃ ts, tokenize text = .ok ts ∧ Token.meaning ts = ls ∧ AreBalanced (ts.map Token.toLexeme)

theorem isTextOf_of_reads {fit : List Char → Prop} {text : String} {fs : List Form}
    (h : Lexeme.Reads fit text.toList (lexemesAll fs)) (hend : fit []) (hproper : areProper fs = true)
    (hgroup : fs.any isGroup = true) : IsTextOf text (lexemesAll fs) := by
  obtain ⟨ts, htokens, hmeaning⟩ := h.tokenize hend
  obtain ⟨layout, hlayout, -⟩ := Layout.ofTokens_of_forest hproper hmeaning hgroup
  exact ⟨ts, htokens, hmeaning, (Layout.ofTokens_ok_iff.1 ⟨layout, hlayout⟩).2⟩

namespace Instr

variable {i : Instr} {indent : String}

theorem inline?_ne_empty {text : String} (h : i.inline? = some text) : text ≠ "" := by
  have hfolded (operands : List String) : folded i.head operands ≠ "" := by
    simp [folded, ← String.toList_inj]
  cases i with
  | localGet | const | br =>
    rw [inline?] at h
    exact Option.some.inj h ▸ hfolded _
  | localSet | eqz | load8U | brIf =>
    rw [inline?] at h
    obtain ⟨operand, -, rfl⟩ := Option.map_eq_some_iff.1 h
    exact hfolded _
  | binary =>
    rw [inline?] at h
    split at h
    · exact Option.some.inj h ▸ hfolded _
    · cases h
  | store8 | block | loop | ifElse | comment => cases h

theorem exists_spreadUnless_eq {head : String} {inner : List Outline} :
    ∃ first items, spreadUnless i.inline? head inner = .line first :: items ∧ first ≠ "" := by
  cases htext : i.inline? with
  | some text => exact ⟨text, [], rfl, inline?_ne_empty htext⟩
  | none => exact ⟨_, _, rfl, by simp [← String.toList_inj]⟩

/-- The first line of an instruction is not empty. -/
theorem exists_outline_eq (i : Instr) :
    ∃ first items, i.outline = .line first :: items ∧ first ≠ "" := by
  cases i with
  | localGet | const | br | localSet | eqz | load8U | brIf | binary =>
    rw [outline]
    exact exists_spreadUnless_eq
  | store8 | block | loop =>
    rw [outline]
    exact ⟨_, _, rfl, by simp [← String.toList_inj]⟩
  | ifElse cond =>
    rw [outline]
    cases cond.inline? with
    | some text => exact ⟨_, _, rfl, by simp [← String.toList_inj]⟩
    | none => exact ⟨_, _, rfl, by simp⟩
  | comment =>
    rw [outline]
    exact ⟨_, _, rfl, by simp [head, ← String.toList_inj]⟩

/-- The text of an instruction reads as its forms, under any indentation. -/
theorem reads_render (hi : i.isWritable = true) (hindent : Config.isIndent indent = true)
    (depth : Nat) : Lexeme.Reads EndsLine (i.render indent depth).toList (lexemesAll i.forms) := by
  obtain ⟨first, items, houtline, hfirst⟩ := i.exists_outline_eq
  have hreads := reads_outline hindent i hi
  rw [render]
  rw [houtline] at hreads ⊢
  exact hreads.render hfirst depth

theorem any_isGroup_forms (h : i.isTidy = true) : i.forms.any isGroup = true := by
  cases i with
  | comment => simp [isTidy] at h
  | _ =>
    rw [forms]
    rfl

/-- The instruction that some lexemes write. -/
def ofLexemes? (ls : List Lexeme) : Option Instr := do
  match ← Form.ofLexemes? ls with
  | [f] => ofForm? f
  | _ => none

/-- Whatever the indentation and the depth, on one line or on several, an instruction has the lexemes of
its forms, and from these it is recovered without its comments. -/
structure ReadsBack (i : Instr) (indent : String) : Prop where
  rendered : ∀ depth, IsTextOf (i.render indent depth) (lexemesAll i.forms)
  inline : ∀ text, i.inline? = some text → IsTextOf text (lexemesAll i.forms)
  recovered : ofLexemes? (lexemesAll i.forms) = some i.bare

theorem readsBack (hi : i.isWritable = true) (htidy : i.isTidy = true)
    (hindent : Config.isIndent indent = true) : i.ReadsBack indent := by
  have hproper := i.areProper_forms
  have hgroup := any_isGroup_forms htidy
  refine ⟨fun depth => ?_, fun text htext => ?_, ?_⟩
  · exact isTextOf_of_reads (reads_render hi hindent depth) (by simp [EndsLine]) hproper hgroup
  · exact isTextOf_of_reads (reads_inline i hi text htext) trivial hproper hgroup
  · obtain ⟨f, hforms, hf⟩ := exists_of_ofForms?_eq_singleton (ofForms?_forms i htidy)
    rw [ofLexemes?, ofLexemes?_lexemesAll hproper, hforms]
    exact hf

end Instr

namespace Function

variable {f : Function} {indent : String}

/-- The function that some lexemes write. -/
def ofLexemes? (ls : List Lexeme) : Option Function := do
  match ← Form.ofLexemes? ls with
  | [f] => ofForm? f
  | _ => none

/-- Whatever the indentation and the depth, a function has the lexemes of its form, and from these it is
recovered without its comments. -/
structure ReadsBack (f : Function) (indent : String) : Prop where
  rendered : ∀ depth, IsTextOf (f.render indent depth) f.form.lexemes
  recovered : ofLexemes? f.form.lexemes = some f.bare

theorem readsBack (hf : f.isWritable = true) (htidy : f.isTidy = true)
    (hindent : Config.isIndent indent = true) : f.ReadsBack indent := by
  have hproper : areProper [f.form] = true := areProper_singleton f.isProper_form
  refine ⟨fun depth => ?_, ?_⟩
  · have hreads := reads_render hf hindent depth
    rw [← lexemesAll_singleton] at hreads ⊢
    exact isTextOf_of_reads hreads (by simp [EndsLine]) hproper rfl
  · rw [← lexemesAll_singleton, ofLexemes?, ofLexemes?_lexemesAll hproper]
    exact ofForm?_form htidy

end Function

/-- What is recovered from two texts with the same lexemes is the same. -/
theorem IsTextOf.eq_of_recovered {α : Type} {recover : List Lexeme → Option α} {x y : α}
    {text text' : String} {ls ls' : List Lexeme} (h : IsTextOf text ls) (h' : IsTextOf text' ls')
    (hx : recover ls = some x) (hy : recover ls' = some y) {ts ts' : List Token}
    (htokens : tokenize text = .ok ts) (htokens' : tokenize text' = .ok ts')
    (hsame : Token.meaning ts = Token.meaning ts') : x = y := by
  obtain ⟨us, hus, rfl, -⟩ := h
  obtain ⟨us', hus', rfl, -⟩ := h'
  obtain rfl := Except.ok.inj (htokens.symm.trans hus)
  obtain rfl := Except.ok.inj (htokens'.symm.trans hus')
  rw [hsame, hy] at hx
  exact (Option.some.inj hx).symm

/-- Trees whose names may be written and whose comments stand in bodies only are read back from their
texts, however these are laid out, and two of them without comments are the same tree if their texts
have the same lexemes. -/
theorem render_reads_back {config config' : Config} (hconfig : config.check = .ok ())
    (hconfig' : config'.check = .ok ()) :
    (∀ i : Instr, i.isWritable = true → i.isTidy = true → i.ReadsBack config.indent) ∧
    (∀ f : Function, f.isWritable = true → f.isTidy = true → f.ReadsBack config.indent) ∧
    (∀ i j : Instr, i.isWritable = true → i.isTidy = true → j.isWritable = true → j.isTidy = true →
      i.bare = i → j.bare = j → ∀ depth depth' ts ts',
        tokenize (i.render config.indent depth) = .ok ts →
        tokenize (j.render config'.indent depth') = .ok ts' →
        Token.meaning ts = Token.meaning ts' → i = j) ∧
    ∀ f g : Function, f.isWritable = true → f.isTidy = true → g.isWritable = true → g.isTidy = true →
      f.bare = f → g.bare = g → ∀ depth depth' ts ts',
        tokenize (f.render config.indent depth) = .ok ts →
        tokenize (g.render config'.indent depth') = .ok ts' →
        Token.meaning ts = Token.meaning ts' → f = g := by
  have hindent := config.isIndent_indent hconfig
  have hindent' := config'.isIndent_indent hconfig'
  refine ⟨fun i hi htidy => Instr.readsBack hi htidy hindent,
    fun f hf htidy => Function.readsBack hf htidy hindent, ?_, ?_⟩
  · intro i j hi hti hj htj hbare hbare' depth depth' ts ts' htokens htokens' hsame
    have hback := Instr.readsBack hi hti hindent
    have hback' := Instr.readsBack hj htj hindent'
    have heq := (hback.rendered depth).eq_of_recovered (hback'.rendered depth') hback.recovered
      hback'.recovered htokens htokens' hsame
    rwa [hbare, hbare'] at heq
  · intro f g hf htf hg htg hbare hbare' depth depth' ts ts' htokens htokens' hsame
    have hback := Function.readsBack hf htf hindent
    have hback' := Function.readsBack hg htg hindent'
    have heq := (hback.rendered depth).eq_of_recovered (hback'.rendered depth') hback.recovered
      hback'.recovered htokens htokens' hsame
    rwa [hbare, hbare'] at heq

/-- A conditional that is an operand, with a comment in its empty else branch. -/
def conditionalOperand : Instr :=
  .eqz (.ifElse (.const (-1)) [.comment "(not swallowed", .br "done"] [.comment "none"])

theorem render_reads_back_operand :
    Config.check ⟨"memcpy", "memset", "\t"⟩ = .ok () ∧ conditionalOperand.ReadsBack "  " ∧
      (Function.copyBytes "memcpy").ReadsBack "  " ∧
      conditionalOperand.bare = .eqz (.ifElse (.const (-1)) [.br "done"] []) := by
  have hconfig : Config.check {} = .ok () := rfl
  have hconfig' : Config.check ⟨"memcpy", "memset", "\t"⟩ = .ok () := rfl
  have hall := render_reads_back hconfig hconfig'
  exact ⟨hconfig', hall.1 conditionalOperand (by decide) (by decide),
    hall.2.1 (.copyBytes "memcpy") (by decide) (by decide), rfl⟩

end BulkMemory
