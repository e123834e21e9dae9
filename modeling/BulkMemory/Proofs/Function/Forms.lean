import BulkMemory.Proofs.Outline.Lines

/-!
# Functions as forms

`Instr.forms` writes an instruction tree as parenthesised forms, without a word about lines: the
same tree has the same forms on one line and on several, and a comment has none. `Function.form` does
so for a function, and no bulk memory instruction is among its keywords (`Function.op?_form`). The
heads of instructions are rows of words, which is what their text is read by.
-/

namespace BulkMemory
set_option autoImplicit false

namespace Form

/-- A group that begins with some lexemes. -/
def headed (head : List Lexeme) (items : List Form) : Form := .group (head.map atom ++ items)

@[simp] theorem lexemesAll_map_atom (ls : List Lexeme) : lexemesAll (ls.map atom) = ls := by
  induction ls with
  | nil => rfl
  | cons l ls ih => rw [List.map_cons, lexemesAll, ih, lexemes]; rfl

theorem lexemes_headed (head : List Lexeme) (items : List Form) :
    (headed head items).lexemes = opening :: (head ++ (lexemesAll items ++ [closing])) := by
  rw [headed, lexemes, lexemesAll_append, lexemesAll_map_atom, List.append_assoc]

theorem lexemesAll_singleton (f : Form) : lexemesAll [f] = f.lexemes := by
  rw [lexemesAll, lexemesAll, List.append_nil]

end Form

namespace Instr

open Lexeme Form

/-- The keyword of an instruction and what follows it other than operands. -/
def headLexemes : Instr → List Lexeme
  | localGet name => [⟨.keyword, "local.get"⟩, named name]
  | localSet name _ => [⟨.keyword, "local.set"⟩, named name]
  | const value => [⟨.keyword, "i32.const"⟩, ⟨.number, toString value.toInt⟩]
  | binary op _ _ => [⟨.keyword, op.mnemonic⟩]
  | eqz _ => [⟨.keyword, "i32.eqz"⟩]
  | load8U _ => [⟨.keyword, "i32.load8_u"⟩]
  | store8 _ _ => [⟨.keyword, "i32.store8"⟩]
  | block label _ => [⟨.keyword, "block"⟩, named label]
  | loop label _ => [⟨.keyword, "loop"⟩, named label]
  | ifElse _ _ _ => [⟨.keyword, "if"⟩]
  | br label => [⟨.keyword, "br"⟩, named label]
  | brIf label _ => [⟨.keyword, "br_if"⟩, named label]
  | comment _ => []

mutual

/-- The form of an instruction. A comment has none, and an empty else branch is left out. -/
def forms : Instr → List Form
  | i@(localGet _) | i@(const _) | i@(br _) => [headed i.headLexemes []]
  | i@(localSet _ value) | i@(eqz value) | i@(load8U value) | i@(brIf _ value) =>
    [headed i.headLexemes value.forms]
  | i@(binary _ lhs rhs) => [headed i.headLexemes (lhs.forms ++ rhs.forms)]
  | i@(store8 addr value) => [headed i.headLexemes (addr.forms ++ value.forms)]
  | i@(block _ body) | i@(loop _ body) => [headed i.headLexemes (formsAll body)]
  | i@(ifElse cond thenBody elseBody) =>
    let thenPart := [headed [⟨.keyword, "then"⟩] (formsAll thenBody)]
    let elsePart := if elseBody.isEmpty then [] else [headed [⟨.keyword, "else"⟩] (formsAll elseBody)]
    [headed i.headLexemes (cond.forms ++ (thenPart ++ elsePart))]
  | comment _ => []

/-- The forms of consecutive instructions. -/
def formsAll : List Instr → List Form
  | [] => []
  | i :: is => i.forms ++ formsAll is

end

mutual

/-- Whether every name in an instruction may be written, and every comment ends with its line. -/
def isWritable : Instr → Bool
  | localGet name | br name => isIdentifier name
  | const _ => true
  | localSet name value | brIf name value => isIdentifier name && value.isWritable
  | eqz value | load8U value => value.isWritable
  | binary _ lhs rhs | store8 lhs rhs => lhs.isWritable && rhs.isWritable
  | block label body | loop label body => isIdentifier label && areWritable body
  | ifElse cond thenBody elseBody =>
    cond.isWritable && (areWritable thenBody && areWritable elseBody)
  | comment text => !text.toList.contains '\n'

/-- Whether consecutive instructions may be written. -/
def areWritable : List Instr → Bool
  | [] => true
  | i :: is => i.isWritable && areWritable is

end

end Instr

namespace Function

open Lexeme Form

/-- The declaration of a parameter or of a local. -/
def declaration (keyword name : String) : Form :=
  headed [⟨.keyword, keyword⟩, named name, ⟨.keyword, "i32"⟩] []

/-- The form of a function. -/
def form (f : Function) : Form :=
  headed [⟨.keyword, "func"⟩, named f.name]
    (f.params.map (declaration "param") ++
      (f.locals.map (declaration "local") ++ Instr.formsAll f.body))

/-- Whether every name in a function may be written, and every comment ends with its line. -/
def isWritable (f : Function) : Bool :=
  isIdentifier f.name && (f.params ++ f.locals).all isIdentifier && Instr.areWritable f.body

end Function

/-! ### Heads -/

namespace Instr

open Lexeme

/-- A digit at the front, perhaps behind a sign, makes a number. -/
theorem isWord_repr (z : Int) : (⟨.number, z.repr⟩ : Lexeme).IsWord := by
  have hdigits (n : Nat) : ∀ c ∈ n.repr.toList, c.isDigit = true := fun c hc =>
    Nat.isDigit_of_mem_toDigits (b := 10) (n := n) (by decide) (by decide) (by simpa [Nat.repr] using hc)
  have hplain {c : Char} (hc : c.isDigit = true) : Lexer.isDelimiter c = false :=
    isDelimiter_of_isAlphanum (by simp [Char.isAlphanum, hc])
  have hfront (n : Nat) : ∃ c cs, n.repr.toList = c :: cs ∧ c.isDigit = true := by
    obtain ⟨c, cs, hcs⟩ := List.exists_cons_of_ne_nil (l := n.repr.toList)
      (by simp [Nat.repr, Nat.toDigits_ne_nil])
    exact ⟨c, cs, hcs, hdigits n c (by rw [hcs]; exact List.mem_cons_self)⟩
  rw [Int.repr_eq_if]
  split
  · obtain ⟨c, cs, hcs, hc⟩ := hfront z.toNat
    have hdollar : c ≠ '$' := by rintro rfl; revert hc; decide
    exact ⟨by simp [hcs, Lexer.classify, hdollar, hc], by simp [hcs],
      fun d hd => hplain (hdigits z.toNat d hd)⟩
  · obtain ⟨c, cs, hcs, hc⟩ := hfront (-z).toNat
    refine ⟨by simp [hcs, Lexer.classify, hc], by simp, fun d hd => ?_⟩
    rcases List.mem_cons.1 (show d ∈ '-' :: (-z).toNat.repr.toList by simpa using hd) with rfl | hd
    · decide
    · exact hplain (hdigits _ d hd)

theorem isWord_headLexemes {i : Instr} (h : i.isWritable = true) :
    ∀ l ∈ i.headLexemes, l.IsWord := by
  cases i with
  | localGet name | br name =>
    simp only [isWritable] at h
    simp only [headLexemes, List.mem_cons, List.not_mem_nil, or_false, forall_eq_or_imp, forall_eq]
    exact ⟨isWord_keyword (by decide) (by decide), isWord_named h⟩
  | localSet name value | brIf name value | block name value | loop name value =>
    simp only [isWritable, Bool.and_eq_true] at h
    simp only [headLexemes, List.mem_cons, List.not_mem_nil, or_false, forall_eq_or_imp, forall_eq]
    exact ⟨isWord_keyword (by decide) (by decide), isWord_named h.1⟩
  | const value =>
    simp only [headLexemes, List.mem_cons, List.not_mem_nil, or_false, forall_eq_or_imp, forall_eq]
    exact ⟨isWord_keyword (by decide) (by decide), isWord_repr value.toInt⟩
  | binary op =>
    simp only [headLexemes, List.mem_singleton, forall_eq]
    cases op <;> exact isWord_keyword (by decide) (by decide)
  | eqz | load8U | store8 | ifElse =>
    simp only [headLexemes, List.mem_singleton, forall_eq]
    exact isWord_keyword (by decide) (by decide)
  | comment => simp [headLexemes]

/-- The head of a comment is its text, which is no word. -/
theorem head_eq_row {i : Instr} (h : i.headLexemes ≠ []) : i.head = row i.headLexemes := by
  cases i <;> simp_all [head, headLexemes, row, named, identifier, ← String.toList_inj]

end Instr

/-! ### The keywords of a function -/

/-- The keywords among some lexemes are among the given words. -/
def Lexeme.KeywordsIn (words : List String) (ls : List Lexeme) : Prop :=
  ∀ l ∈ ls, l.kind = .keyword → l.text ∈ words

theorem Lexeme.KeywordsIn.append {words : List String} {as bs : List Lexeme}
    (has : KeywordsIn words as) (hbs : KeywordsIn words bs) : KeywordsIn words (as ++ bs) :=
  List.forall_mem_append.2 ⟨has, hbs⟩

theorem Lexeme.KeywordsIn.mono {words words' : List String} {ls : List Lexeme}
    (h : KeywordsIn words ls) (hsub : words ⊆ words') : KeywordsIn words' ls :=
  fun l hl hkind => hsub (h l hl hkind)

namespace Instr

open Lexeme Form

/-- The keywords of instructions and of their branches. -/
def keywords : List String :=
  ["local.get", "local.set", "i32.const", "i32.add", "i32.sub", "i32.gt_u", "i32.ge_u", "i32.eqz",
    "i32.load8_u", "i32.store8", "block", "loop", "if", "then", "else", "br", "br_if"]

theorem keywordsIn_headLexemes (i : Instr) : KeywordsIn keywords i.headLexemes := by
  cases i with
  | binary op => cases op <;> simp [KeywordsIn, headLexemes, keywords, BinaryOp.mnemonic]
  | _ => simp [KeywordsIn, headLexemes, keywords, named]

theorem keywordsIn_headed {words : List String} {hs : List Lexeme} {fs : List Form}
    (hhead : KeywordsIn words hs) (h : KeywordsIn words (lexemesAll fs)) :
    KeywordsIn words (lexemesAll [headed hs fs]) := by
  rw [lexemesAll_singleton, lexemes_headed]
  have hopening : KeywordsIn words [opening] := by simp [KeywordsIn, opening]
  have hclosing : KeywordsIn words [closing] := by simp [KeywordsIn, closing]
  exact hopening.append (hhead.append (h.append hclosing))

mutual

theorem keywordsIn_forms : (i : Instr) → KeywordsIn keywords (lexemesAll i.forms)
  | localGet _ | const _ | br _ => by
    rw [forms]
    exact keywordsIn_headed (keywordsIn_headLexemes _) (by simp [KeywordsIn])
  | localSet _ value | eqz value | load8U value | brIf _ value => by
    rw [forms]
    exact keywordsIn_headed (keywordsIn_headLexemes _) (keywordsIn_forms value)
  | binary _ lhs rhs | store8 lhs rhs => by
    rw [forms]
    refine keywordsIn_headed (keywordsIn_headLexemes _) ?_
    rw [lexemesAll_append]
    exact (keywordsIn_forms lhs).append (keywordsIn_forms rhs)
  | block _ body | loop _ body => by
    rw [forms]
    exact keywordsIn_headed (keywordsIn_headLexemes _) (keywordsIn_formsAll body)
  | ifElse cond thenBody elseBody => by
    have hbranch {word : String} (h : word ∈ keywords) {body : List Instr}
        (hbody : KeywordsIn keywords (lexemesAll (formsAll body))) :
        KeywordsIn keywords (lexemesAll [headed [⟨.keyword, word⟩] (formsAll body)]) :=
      keywordsIn_headed (by simpa [KeywordsIn] using h) hbody
    rw [forms]
    refine keywordsIn_headed (keywordsIn_headLexemes _) ?_
    rw [lexemesAll_append, lexemesAll_append]
    refine (keywordsIn_forms cond).append
      ((hbranch (by decide) (keywordsIn_formsAll thenBody)).append ?_)
    split
    · simp [KeywordsIn]
    · exact hbranch (by decide) (keywordsIn_formsAll elseBody)
  | comment _ => by simp [forms, KeywordsIn]

theorem keywordsIn_formsAll : (is : List Instr) → KeywordsIn keywords (lexemesAll (formsAll is))
  | [] => by simp [formsAll, KeywordsIn]
  | i :: is => by
    rw [formsAll, lexemesAll_append]
    exact (keywordsIn_forms i).append (keywordsIn_formsAll is)

end

end Instr

namespace Function

open Lexeme Form

/-- The keywords of a function behind its name. -/
def keywords : List String := "param" :: "local" :: "i32" :: Instr.keywords

theorem keywordsIn_declarations {word : String} (h : word ∈ keywords) (names : List String) :
    KeywordsIn keywords (lexemesAll (names.map (declaration word))) := by
  have hhead (name : String) :
      KeywordsIn keywords [⟨.keyword, word⟩, named name, ⟨.keyword, "i32"⟩] := by
    simpa [KeywordsIn, named] using ⟨h, by decide⟩
  induction names with
  | nil => simp [KeywordsIn]
  | cons name names ih =>
    have hname : KeywordsIn keywords (lexemesAll [declaration word name]) :=
      Instr.keywordsIn_headed (hhead name) (by simp [KeywordsIn])
    rw [lexemesAll_singleton] at hname
    exact hname.append ih

/-- What stands in a function behind its name. -/
theorem exists_lexemes_form (f : Function) :
    ∃ rest, f.form.lexemes = opening :: ⟨.keyword, "func"⟩ :: named f.name :: (rest ++ [closing]) ∧
      KeywordsIn keywords rest := by
  refine ⟨_, lexemes_headed [⟨.keyword, "func"⟩, named f.name] _, ?_⟩
  rw [lexemesAll_append, lexemesAll_append]
  have hbody : Instr.keywords ⊆ keywords := fun word hword => by simp [keywords, hword]
  exact (keywordsIn_declarations (by decide) f.params).append
    ((keywordsIn_declarations (by decide) f.locals).append
      ((Instr.keywordsIn_formsAll f.body).mono hbody))

/-- No bulk memory instruction stands in a function. -/
theorem op?_form (f : Function) : ∀ l ∈ f.form.lexemes, l.op? = none := by
  obtain ⟨rest, hlexemes, hrest⟩ := f.exists_lexemes_form
  have hwords : ∀ word ∈ "func" :: keywords, Op.ofMnemonic? word = none := by decide
  have hall : KeywordsIn ("func" :: keywords) f.form.lexemes := by
    rw [hlexemes]
    have hhead : KeywordsIn ("func" :: keywords) [opening, ⟨.keyword, "func"⟩, named f.name] := by
      simp [KeywordsIn, opening, named]
    have hclosing : KeywordsIn ("func" :: keywords) [closing] := by simp [KeywordsIn, closing]
    exact hhead.append ((hrest.mono (List.subset_cons_self _ _)).append hclosing)
  intro l hl
  rw [op?]
  split
  · next hkind => exact hwords _ (hall l hl hkind)
  · rfl

end Function

end BulkMemory
