import BulkMemory.Proofs.Form.Reading
import BulkMemory.Proofs.Function.Forms
import BulkMemory.Proofs.Replacement.Names

/-!
# Functions read back from their forms

`Instr.ofForm?` reads an instruction tree from a form, and `Function.ofForm?` a function. They give back
what was written, without the comments (`Instr.ofForms?_formsAll`, `Function.ofForm?_form`), as long as
no comment takes the place of an operand. So a form tells the tree.
-/

namespace BulkMemory
set_option autoImplicit false

/-! ### Trees without their comments -/

namespace Instr

/-- Whether an instruction is a comment. -/
def isComment : Instr → Bool
  | comment _ => true
  | _ => false

mutual

/-- Whether an instruction is no comment and has none as an operand: comments stand in bodies only. -/
def isTidy : Instr → Bool
  | localGet _ | const _ | br _ => true
  | localSet _ value | eqz value | load8U value | brIf _ value => value.isTidy
  | binary _ lhs rhs | store8 lhs rhs => lhs.isTidy && rhs.isTidy
  | block _ body | loop _ body => areTidy body
  | ifElse cond thenBody elseBody => cond.isTidy && (areTidy thenBody && areTidy elseBody)
  | comment _ => false

/-- Whether each instruction of a body is a comment or has comments in bodies only. -/
def areTidy : List Instr → Bool
  | [] => true
  | i :: is => (i.isComment || i.isTidy) && areTidy is

end

mutual

/-- An instruction without the comments in its bodies. -/
def bare : Instr → Instr
  | localGet name => localGet name
  | localSet name value => localSet name value.bare
  | const value => const value
  | binary op lhs rhs => binary op lhs.bare rhs.bare
  | eqz value => eqz value.bare
  | load8U addr => load8U addr.bare
  | store8 addr value => store8 addr.bare value.bare
  | block label body => block label (bareAll body)
  | loop label body => loop label (bareAll body)
  | ifElse cond thenBody elseBody => ifElse cond.bare (bareAll thenBody) (bareAll elseBody)
  | br label => br label
  | brIf label cond => brIf label cond.bare
  | comment text => comment text

/-- A body without its comments. -/
def bareAll : List Instr → List Instr
  | [] => []
  | i :: is => if i.isComment then bareAll is else i.bare :: bareAll is

end

end Instr

namespace Function

/-- Whether comments stand in bodies only. -/
def isTidy (f : Function) : Bool := Instr.areTidy f.body

/-- A function without its comments. -/
def bare (f : Function) : Function := { f with body := Instr.bareAll f.body }

end Function

/-! ### Names and numbers -/

/-- The name for which an identifier stands. -/
def Lexeme.name? (l : Lexeme) : Option String :=
  if l.kind = .id then some (String.ofList l.text.toList.tail) else none

theorem Lexeme.name?_named (name : String) : (named name).name? = some name := by
  simp [name?, named, identifier]

/-- The word for which a number in decimals stands. -/
def wordOfDecimal (text : String) : Word :=
  match text.toList with
  | '-' :: ds => BitVec.ofInt 32 (-(Nat.ofDigitChars 10 ds 0 : Int))
  | ds => BitVec.ofInt 32 (Nat.ofDigitChars 10 ds 0 : Int)

theorem wordOfDecimal_repr (n : Nat) : wordOfDecimal n.repr = BitVec.ofInt 32 (n : Int) := by
  rw [wordOfDecimal]
  split
  · next ds hds =>
    -- no digit is a sign
    have hmem : '-' ∈ Nat.toDigits 10 n := by
      rw [← Nat.toList_repr, hds]
      exact List.mem_cons_self
    exact absurd (Nat.isDigit_of_mem_toDigits (by decide) (by decide) hmem) (by decide)
  · rw [Nat.toList_repr, Nat.ofDigitChars_ten_toDigits]

theorem wordOfDecimal_neg_repr (n : Nat) :
    wordOfDecimal ("-" ++ n.repr) = BitVec.ofInt 32 (-(n : Int)) := by
  have htext : ("-" ++ n.repr).toList = '-' :: n.repr.toList := by simp
  rw [wordOfDecimal, htext]
  change BitVec.ofInt 32 (-(Nat.ofDigitChars 10 n.repr.toList 0 : Int)) = _
  rw [Nat.toList_repr, Nat.ofDigitChars_ten_toDigits]

/-- A word is read back from its decimals. -/
theorem wordOfDecimal_toInt (w : Word) : wordOfDecimal (toString w.toInt) = w := by
  change wordOfDecimal w.toInt.repr = w
  rw [Int.repr_eq_if]
  split
  · next hpos => rw [wordOfDecimal_repr, Int.toNat_of_nonneg hpos, BitVec.ofInt_toInt]
  · next hneg =>
    have hneg : 0 ≤ -w.toInt := by omega
    rw [wordOfDecimal_neg_repr, Int.toNat_of_nonneg hneg, Int.neg_neg, BitVec.ofInt_toInt]

/-- The operator with the given keyword. -/
def BinaryOp.ofMnemonic? (text : String) : Option BinaryOp :=
  [add, sub, gtU, geU].find? fun op => op.mnemonic == text

theorem BinaryOp.ofMnemonic?_mnemonic (op : BinaryOp) : ofMnemonic? op.mnemonic = some op := by
  cases op <;> decide

/-! ### Reading forms -/

namespace Instr

/-- The instruction with a keyword and operands. -/
def ofOperands? (keyword : String) : List Instr → Option Instr
  | [value] =>
    if keyword = "i32.eqz" then some (eqz value)
    else if keyword = "i32.load8_u" then some (load8U value)
    else none
  | [lhs, rhs] =>
    if keyword = "i32.store8" then some (store8 lhs rhs)
    else (BinaryOp.ofMnemonic? keyword).map fun op => binary op lhs rhs
  | _ => none

/-- The instruction with a keyword, a name and what follows it. -/
def ofNamed? (keyword name : String) : List Instr → Option Instr
  | [] =>
    if keyword = "local.get" then some (localGet name)
    else if keyword = "br" then some (br name)
    else if keyword = "block" then some (block name [])
    else if keyword = "loop" then some (loop name [])
    else none
  | i :: is =>
    if keyword = "block" then some (block name (i :: is))
    else if keyword = "loop" then some (loop name (i :: is))
    else if is.isEmpty then
      if keyword = "local.set" then some (localSet name i)
      else if keyword = "br_if" then some (brIf name i)
      else none
    else none

mutual

/-- The instruction that a form writes. -/
def ofForm? : Form → Option Instr
  | .atom _ => none
  | .group items => ofItems? items

/-- The instruction that a group of forms writes. -/
def ofItems? : List Form → Option Instr
  | .atom k :: .atom l :: operands =>
    if l.kind = .number then
      if k.text = "i32.const" ∧ operands.isEmpty then some (const (wordOfDecimal l.text)) else none
    else do ofNamed? k.text (← l.name?) (← ofForms? operands)
  | .atom k :: operands =>
    if k.text = "if" then ofConditional? operands else do ofOperands? k.text (← ofForms? operands)
  | _ => none

/-- The conditional that a condition and branches write. -/
def ofConditional? : List Form → Option Instr
  | [cond, thenPart] => do
    return ifElse (← ofForm? cond) (← ofBranch? "then" thenPart) []
  | [cond, thenPart, elsePart] => do
    return ifElse (← ofForm? cond) (← ofBranch? "then" thenPart) (← ofBranch? "else" elsePart)
  | _ => none

/-- The body that a branch of a conditional holds. -/
def ofBranch? (keyword : String) : Form → Option (List Instr)
  | .group (.atom k :: items) => if k.text = keyword then ofForms? items else none
  | _ => none

/-- The instructions that some forms write. -/
def ofForms? : List Form → Option (List Instr)
  | [] => some []
  | f :: fs => do return (← ofForm? f) :: (← ofForms? fs)

end

variable {fs gs : List Form} {is js : List Instr} {i : Instr}

theorem ofForms?_append (hf : ofForms? fs = some is) (hg : ofForms? gs = some js) :
    ofForms? (fs ++ gs) = some (is ++ js) := by
  induction fs generalizing is with
  | nil =>
    obtain rfl : [] = is := Option.some.inj hf
    exact hg
  | cons f fs ih =>
    rw [ofForms?] at hf
    obtain ⟨j, hj, ks, hks, rfl⟩ : ∃ j, ofForm? f = some j ∧ ∃ ks, ofForms? fs = some ks ∧ j :: ks = is := by
      simpa [Option.bind_eq_some_iff] using hf
    rw [List.cons_append, ofForms?, hj, ih hks]
    rfl

/-- Forms that write one instruction are one form. -/
theorem exists_of_ofForms?_eq_singleton (h : ofForms? fs = some [i]) :
    ∃ f, fs = [f] ∧ ofForm? f = some i := by
  cases fs with
  | nil => cases h
  | cons f fs =>
    rw [ofForms?] at h
    obtain ⟨hf, hfs⟩ : ofForm? f = some i ∧ ofForms? fs = some [] := by
      simpa [Option.bind_eq_some_iff] using h
    cases fs with
    | nil => exact ⟨f, rfl, hf⟩
    | cons g gs =>
      rw [ofForms?] at hfs
      simp [Option.bind_eq_some_iff] at hfs

theorem ofForms?_singleton {f : Form} (h : ofForm? f = some i) : ofForms? [f] = some [i] := by
  rw [ofForms?, h]
  rfl

/-- A keyword and operands. -/
theorem ofForm?_headed {keyword : String} (hk : keyword ≠ "if") (h : ofForms? fs = some is) :
    ofForm? (Form.headed [⟨.keyword, keyword⟩] fs) = ofOperands? keyword is := by
  change ofItems? (.atom ⟨.keyword, keyword⟩ :: fs) = _
  rw [ofItems?, if_neg hk, h]
  · rfl
  · -- no instruction is a bare lexeme
    rintro l operands rfl
    rw [ofForms?, ofForm?] at h
    cases h

/-- A keyword, a name and what follows it. -/
theorem ofForm?_headed_named (keyword name : String) (h : ofForms? fs = some is) :
    ofForm? (Form.headed [⟨.keyword, keyword⟩, Lexeme.named name] fs) = ofNamed? keyword name is := by
  have hid : (Lexeme.named name).kind ≠ .number := by simp [Lexeme.named]
  change ofItems? (.atom ⟨.keyword, keyword⟩ :: .atom (Lexeme.named name) :: fs) = _
  rw [ofItems?, if_neg hid, Lexeme.name?_named, h]
  rfl

/-- A number. -/
theorem ofForm?_headed_number (text : String) :
    ofForm? (Form.headed [⟨.keyword, "i32.const"⟩, ⟨.number, text⟩] []) =
      some (const (wordOfDecimal text)) := rfl

theorem ofNamed?_block (name : String) (is : List Instr) :
    ofNamed? "block" name is = some (block name is) := by
  cases is <;> simp [ofNamed?]

theorem ofNamed?_loop (name : String) (is : List Instr) :
    ofNamed? "loop" name is = some (loop name is) := by
  cases is <;> simp [ofNamed?]

theorem ofOperands?_binary (op : BinaryOp) (lhs rhs : Instr) :
    ofOperands? op.mnemonic [lhs, rhs] = some (binary op lhs rhs) := by
  have hstore : op.mnemonic ≠ "i32.store8" := by cases op <;> decide
  rw [ofOperands?, if_neg hstore, BinaryOp.ofMnemonic?_mnemonic]
  rfl

/-- A keyword and the body of a branch. -/
theorem ofBranch?_headed (keyword : String) (h : ofForms? fs = some is) :
    ofBranch? keyword (Form.headed [⟨.keyword, keyword⟩] fs) = some is := by
  change ofBranch? keyword (.group (.atom ⟨.keyword, keyword⟩ :: fs)) = _
  rw [ofBranch?, if_pos rfl, h]

/-- A condition and its branches. -/
theorem ofForm?_headed_conditional {cond : Form} {rest : List Form} (h : ofForm? cond = some i) :
    ofForm? (Form.headed [⟨.keyword, "if"⟩] (cond :: rest)) = ofConditional? (cond :: rest) := by
  change ofItems? (.atom ⟨.keyword, "if"⟩ :: cond :: rest) = _
  rw [ofItems?, if_pos rfl]
  rintro l operands heq
  obtain ⟨rfl, -⟩ := List.cons.inj heq
  rw [ofForm?] at h
  cases h

/-- A conditional is read with its else branch, or with none if that is not there. -/
theorem ofForm?_ifElse {cond : Form} {thenBody elseBody : List Instr} (hcond : ofForm? cond = some i)
    (hthen : ofForms? (formsAll thenBody) = some is) (helse : ofForms? (formsAll elseBody) = some js) :
    ofForm? (Form.headed [⟨.keyword, "if"⟩] ([cond] ++
      ([Form.headed [⟨.keyword, "then"⟩] (formsAll thenBody)] ++
        if elseBody.isEmpty then [] else [Form.headed [⟨.keyword, "else"⟩] (formsAll elseBody)]))) =
      some (ifElse i is js) := by
  have hthenPart := ofBranch?_headed "then" hthen
  have helsePart := ofBranch?_headed "else" helse
  rw [List.singleton_append, ofForm?_headed_conditional hcond, List.singleton_append]
  split
  · next hempty =>
    obtain rfl := List.isEmpty_iff.1 hempty
    obtain rfl : [] = js := Option.some.inj helse
    rw [ofConditional?, hcond, hthenPart]
    rfl
  · rw [ofConditional?, hcond, hthenPart, helsePart]
    rfl

mutual

/-- The forms of an instruction are read back as the instruction without its comments. -/
theorem ofForms?_forms : (i : Instr) → i.isTidy = true → ofForms? i.forms = some [i.bare]
  | localGet name, _ => by
    rw [forms, bare]
    exact ofForms?_singleton ((ofForm?_headed_named _ name rfl).trans rfl)
  | br label, _ => by
    rw [forms, bare]
    exact ofForms?_singleton ((ofForm?_headed_named _ label rfl).trans rfl)
  | const value, _ => by
    rw [forms, bare]
    refine ofForms?_singleton ((ofForm?_headed_number _).trans ?_)
    rw [wordOfDecimal_toInt]
  | localSet name value, h => by
    have hvalue := ofForms?_forms value (by simpa only [isTidy] using h)
    rw [forms, bare]
    exact ofForms?_singleton ((ofForm?_headed_named _ name hvalue).trans rfl)
  | brIf label cond, h => by
    have hcond := ofForms?_forms cond (by simpa only [isTidy] using h)
    rw [forms, bare]
    exact ofForms?_singleton ((ofForm?_headed_named _ label hcond).trans rfl)
  | eqz value, h => by
    have hvalue := ofForms?_forms value (by simpa only [isTidy] using h)
    rw [forms, bare]
    exact ofForms?_singleton ((ofForm?_headed (by decide) hvalue).trans rfl)
  | load8U addr, h => by
    have haddr := ofForms?_forms addr (by simpa only [isTidy] using h)
    rw [forms, bare]
    exact ofForms?_singleton ((ofForm?_headed (by decide) haddr).trans rfl)
  | binary op lhs rhs, h => by
    simp only [isTidy, Bool.and_eq_true] at h
    have hboth := ofForms?_append (ofForms?_forms lhs h.1) (ofForms?_forms rhs h.2)
    rw [forms, bare]
    refine ofForms?_singleton ((ofForm?_headed ?_ hboth).trans (ofOperands?_binary op _ _))
    cases op <;> decide
  | store8 addr value, h => by
    simp only [isTidy, Bool.and_eq_true] at h
    have hboth := ofForms?_append (ofForms?_forms addr h.1) (ofForms?_forms value h.2)
    rw [forms, bare]
    exact ofForms?_singleton ((ofForm?_headed (by decide) hboth).trans rfl)
  | block label body, h => by
    have hbody := ofForms?_formsAll body (by simpa only [isTidy] using h)
    rw [forms, bare]
    exact ofForms?_singleton ((ofForm?_headed_named _ label hbody).trans (ofNamed?_block _ _))
  | loop label body, h => by
    have hbody := ofForms?_formsAll body (by simpa only [isTidy] using h)
    rw [forms, bare]
    exact ofForms?_singleton ((ofForm?_headed_named _ label hbody).trans (ofNamed?_loop _ _))
  | ifElse cond thenBody elseBody, h => by
    simp only [isTidy, Bool.and_eq_true] at h
    obtain ⟨f, hforms, hf⟩ := exists_of_ofForms?_eq_singleton (ofForms?_forms cond h.1)
    have hthen := ofForms?_formsAll thenBody h.2.1
    have helse := ofForms?_formsAll elseBody h.2.2
    rw [forms, bare, hforms]
    exact ofForms?_singleton (ofForm?_ifElse hf hthen helse)
  | comment text, h => by
    simp [isTidy] at h

/-- The forms of a body are read back as the body without its comments. -/
theorem ofForms?_formsAll : (is : List Instr) → areTidy is = true →
    ofForms? (formsAll is) = some (bareAll is)
  | [], _ => rfl
  | i :: is, h => by
    rw [areTidy, Bool.and_eq_true, Bool.or_eq_true] at h
    have hlater := ofForms?_formsAll is h.2
    rw [formsAll, bareAll]
    cases hi : i.isComment with
    | true =>
      cases i with
      | comment text => simpa [forms] using hlater
      | _ => cases hi
    | false =>
      have htidy : i.isTidy = true := h.1.resolve_left (by simp [hi])
      exact ofForms?_append (ofForms?_forms i htidy) hlater

end

end Instr

/-! ### Reading functions -/

namespace Function

open Instr

/-- The name that a parameter or a local is declared with. -/
def declared? (keyword : String) : Form → Option String
  | .group [.atom k, .atom l, .atom _] => if k.text = keyword then l.name? else none
  | _ => none

/-- The names declared in front of some forms, and the forms behind the declarations. -/
def declarations (keyword : String) : List Form → List String × List Form
  | [] => ([], [])
  | f :: fs =>
    match declared? keyword f with
    | some name => (name :: (declarations keyword fs).1, (declarations keyword fs).2)
    | none => ([], f :: fs)

/-- The function that a form writes. -/
def ofForm? : Form → Option Function
  | .group (.atom k :: .atom l :: items) => do
    if k.text = "func" then
      let name ← l.name?
      let (params, items) := declarations "param" items
      let (locals, items) := declarations "local" items
      let body ← ofForms? items
      return ⟨name, params, locals, body⟩
    else none
  | _ => none

theorem declared?_declaration (keyword name : String) :
    declared? keyword (declaration keyword name) = some name := by
  change (if keyword = keyword then (Lexeme.named name).name? else none) = _
  rw [if_pos rfl, Lexeme.name?_named]

theorem declarations_of_head {keyword : String} {fs : List Form}
    (h : ∀ f ∈ fs.head?, declared? keyword f = none) : declarations keyword fs = ([], fs) := by
  cases fs with
  | nil => rfl
  | cons f fs => rw [declarations, h f rfl]

/-- All declarations in front of other forms are read. -/
theorem declarations_map_append {keyword : String} (names : List String) {fs : List Form}
    (h : ∀ f ∈ fs.head?, declared? keyword f = none) :
    declarations keyword (names.map (declaration keyword) ++ fs) = (names, fs) := by
  induction names with
  | nil => exact declarations_of_head h
  | cons name names ih =>
    rw [List.map_cons, List.cons_append, declarations, declared?_declaration, ih]

/-- No instruction is a declaration. -/
theorem declared?_of_ofForm? {keyword : String} {f : Form} {i : Instr}
    (h : Instr.ofForm? f = some i) : declared? keyword f = none := by
  unfold declared?
  split
  · next k l m =>
    -- a bare lexeme cannot be an operand
    have hnone : Instr.ofForm? (.group [.atom k, .atom l, .atom m]) = none := by
      change ofItems? [.atom k, .atom l, .atom m] = none
      rw [ofItems?]
      simp [ofForms?, Instr.ofForm?]
    rw [hnone] at h
    cases h
  · rfl

theorem declared?_of_mem_formsAll {keyword : String} {fs : List Form} {is : List Instr}
    (h : ofForms? fs = some is) : ∀ f ∈ fs.head?, declared? keyword f = none := by
  intro f hf
  obtain ⟨gs, rfl⟩ := List.head?_eq_some_iff.1 hf
  rw [ofForms?] at h
  obtain ⟨i, hi, -⟩ := Option.bind_eq_some_iff.1 h
  exact declared?_of_ofForm? hi

/-- A function is read back from its form, without its comments. -/
theorem ofForm?_form {f : Function} (h : f.isTidy = true) : ofForm? f.form = some f.bare := by
  have hbody := ofForms?_formsAll f.body h
  have hlocals : declarations "local" (f.locals.map (declaration "local") ++ formsAll f.body) =
      (f.locals, formsAll f.body) :=
    declarations_map_append f.locals (declared?_of_mem_formsAll hbody)
  have hparams : declarations "param" (f.params.map (declaration "param") ++
      (f.locals.map (declaration "local") ++ formsAll f.body)) =
        (f.params, f.locals.map (declaration "local") ++ formsAll f.body) := by
    refine declarations_map_append f.params fun g hg => ?_
    cases hnames : f.locals with
    | nil => exact declared?_of_mem_formsAll hbody g (by simpa [hnames] using hg)
    | cons name names =>
      obtain rfl : declaration "local" name = g := by simpa [hnames] using hg
      rfl
  change ofForm? (.group (.atom ⟨.keyword, "func"⟩ :: .atom (Lexeme.named f.name) ::
    (f.params.map (declaration "param") ++
      (f.locals.map (declaration "local") ++ formsAll f.body)))) = _
  rw [ofForm?, if_pos rfl, Lexeme.name?_named, hparams]
  simp only [hlocals, hbody]
  rfl

end Function

end BulkMemory
