import BulkMemory.Proofs.Form.Calls
import BulkMemory.Proofs.Function.Forms

/-!
# The functions that a module names

A function is named where `( func $name` stands, and a parenthesis cannot stand inside such a header,
so the names of a text are those of its parts on both sides of one
(`Lexeme.functionNames_append_paren`). An exchange makes no header and breaks none
(`Lexeme.functionNames_calls`), and the text of a replacement names itself and nothing else
(`Function.functionNames_form`). Among the tokens of a module, the names found are those in its headers
(`Layout.mem_namedFunctions_iff`).
-/

namespace BulkMemory
set_option autoImplicit false

namespace Lexeme

/-- The identifier of the function whose header begins with a lexeme, seen with what follows it. -/
def functionName? (l : Lexeme) : List Lexeme → Option String
  | func :: name :: _ =>
    if l.kind == .leftParen && func.isKeyword "func" && name.kind == .id then some name.text else none
  | _ => none

/-- The identifiers that directly follow `( func`, at any depth. -/
def functionNames : List Lexeme → List String
  | [] => []
  | l :: ls => (functionName? l ls).toList ++ functionNames ls

/-- The layout of a module finds the names among its lexemes. -/
theorem namedFunctions_eq (ts : List Token) :
    Layout.namedFunctions ts = functionNames (ts.map Token.toLexeme) := by
  fun_induction Layout.namedFunctions ts with
  | case1 t func name ts hheader ih =>
    have hhead : functionName? t.toLexeme ((func :: name :: ts).map Token.toLexeme) =
      some name.text := if_pos hheader
    rw [ih, List.map_cons (a := t), functionNames, hhead]
    rfl
  | case2 t func name ts hheader ih =>
    have hhead : functionName? t.toLexeme ((func :: name :: ts).map Token.toLexeme) = none :=
      if_neg hheader
    rw [ih, List.map_cons (a := t), functionNames, hhead]
    rfl
  | case3 ts hshort =>
    match ts with
    | [] | [_] | [_, _] => rfl
    | t :: func :: name :: ts => exact absurd rfl (hshort t func name ts)

variable {l p : Lexeme} {ls : List Lexeme}

theorem functionName?_of_kind (h : l.kind ≠ .leftParen) (ls : List Lexeme) :
    functionName? l ls = none := by
  cases ls with
  | nil => rfl
  | cons k ks =>
    cases ks with
    | nil => rfl
    | cons n ns => simp [functionName?, h]

theorem functionName?_of_not_func (h : l.isKeyword "func" = false) (k : Lexeme) (ls : List Lexeme) :
    functionName? k (l :: ls) = none := by
  cases ls with
  | nil => rfl
  | cons n ns => simp [functionName?, h]

theorem functionName?_of_not_id (h : l.kind ≠ .id) (k k' : Lexeme) (ls : List Lexeme) :
    functionName? k (k' :: l :: ls) = none := by
  simp [functionName?, h]

theorem functionNames_cons_of_kind (h : l.kind ≠ .leftParen) (ls : List Lexeme) :
    functionNames (l :: ls) = functionNames ls := by
  rw [functionNames, functionName?_of_kind h]
  rfl

/-! ### Cuts at a parenthesis -/

/-- No header goes across a parenthesis. -/
theorem functionName?_append_paren (h : p.isParen = true) (l : Lexeme) (as bs : List Lexeme) :
    functionName? l (as ++ p :: bs) = functionName? l as := by
  have hkind : p.kind ≠ .keyword ∧ p.kind ≠ .id := by
    constructor <;> intro hkind <;> simp [isParen, hkind] at h
  have hfunc : p.isKeyword "func" = false := by simp [isKeyword, hkind.1]
  rcases as with _ | ⟨a, _ | ⟨b, as⟩⟩
  · exact functionName?_of_not_func hfunc l bs
  · exact functionName?_of_not_id hkind.2 l a bs
  · rfl

theorem functionNames_append_paren (h : p.isParen = true) (as bs : List Lexeme) :
    functionNames (as ++ p :: bs) = functionNames as ++ functionNames (p :: bs) := by
  induction as with
  | nil => rfl
  | cons a as ih =>
    rw [List.cons_append, functionNames, functionName?_append_paren h, ih, ← List.append_assoc]
    rfl

theorem functionNames_append_closing (as bs : List Lexeme) :
    functionNames (as ++ Form.closing :: bs) = functionNames as ++ functionNames bs := by
  rw [functionNames_append_paren (by decide), functionNames_cons_of_kind (by decide)]

/-! ### Headers and calls -/

variable {rs : List Replacement}

/-- The indices that an instruction takes stand in no header. -/
theorem functionNames_drop : (count : Nat) → (ls : List Lexeme) →
    count ≤ (ls.takeWhile fun l => l.isZero).length →
      functionNames (ls.drop count) = functionNames ls
  | 0, _, _ => rfl
  | count + 1, [], _ => rfl
  | count + 1, l :: ls, h => by
    cases hzero : l.isZero with
    | false => simp [hzero] at h
    | true =>
      have hkind : l.kind ≠ .leftParen := by
        intro hkind
        simp [isZero, hkind] at hzero
      have hcount : count ≤ (ls.takeWhile fun l => l.isZero).length := by simpa [hzero] using h
      rw [List.drop_succ_cons, functionNames_drop count ls hcount, functionNames_cons_of_kind hkind]

/-- What stands behind a parenthesis is the same header with calls in place, or none in both cases. -/
theorem functionName?_calls (rs : List Replacement) (l : Lexeme) (ls : List Lexeme) :
    functionName? l (calls rs ls) = functionName? l ls := by
  have hcall (ms : List Lexeme) : functionName? l (⟨.keyword, "call"⟩ :: ms) = none :=
    functionName?_of_not_func (by decide) l ms
  cases ls with
  | nil => simp [calls]
  | cons k ks =>
    cases hk : k.replacement? rs with
    | some r =>
      have hword : r.op.mnemonic ≠ "func" := by cases r.op <;> decide
      have hfunc : k.isKeyword "func" = false := by
        rw [isKeyword, (replacement?_eq_some hk).2.2, beq_eq_false_iff_ne.2 hword, Bool.and_false]
      rw [calls_cons_of_some hk, hcall, functionName?_of_not_func hfunc]
    | none =>
      rw [calls_cons_of_none hk]
      cases ks with
      | nil => simp [calls]
      | cons n ns =>
        cases hn : n.replacement? rs with
        | none =>
          rw [calls_cons_of_none hn]
          rfl
        | some r =>
          have hid : n.kind ≠ .id := by simp [(replacement?_eq_some hn).1]
          rw [calls_cons_of_some hn, functionName?_of_not_id (by simp), functionName?_of_not_id hid]

/-- An exchange names the same functions. -/
theorem functionNames_calls (rs : List Replacement) (ls : List Lexeme) :
    functionNames (calls rs ls) = functionNames ls := by
  fun_induction calls rs ls with
  | case1 => rfl
  | case2 l ls hnone ih => rw [functionNames, functionName?_calls, ih, functionNames]
  | case3 l ls r hsome ih =>
    have hkind : l.kind ≠ .leftParen := by simp [(replacement?_eq_some hsome).1]
    rw [functionNames_cons_of_kind (by simp), functionNames_cons_of_kind (by simp [named]), ih,
      functionNames_drop _ ls (length_takenIndices_le id _ ls), functionNames_cons_of_kind hkind]

/-! ### Functions -/

theorem functionNames_eq_nil (h : ∀ l ∈ ls, l.isKeyword "func" = false) : functionNames ls = [] := by
  induction ls with
  | nil => rfl
  | cons l ls ih =>
    obtain ⟨-, hls⟩ := List.forall_mem_cons.1 h
    rw [functionNames, ih hls, List.append_nil]
    cases ls with
    | nil => rfl
    | cons k ks => rw [functionName?_of_not_func (hls k List.mem_cons_self)]; rfl

end Lexeme

open Lexeme

/-- A function names itself, whatever stands behind it. -/
theorem Function.functionNames_form (f : Function) (ls : List Lexeme) :
    functionNames (f.form.lexemes ++ ls) = identifier f.name :: functionNames ls := by
  obtain ⟨rest, hlexemes, hrest⟩ := f.exists_lexemes_form
  have hnone : functionNames (named f.name :: rest) = [] := by
    refine functionNames_eq_nil (List.forall_mem_cons.2 ⟨rfl, fun l hl => ?_⟩)
    have hwords : "func" ∉ keywords := by decide
    rw [Bool.eq_false_iff]
    intro hfunc
    simp only [isKeyword, Bool.and_eq_true, beq_iff_eq] at hfunc
    exact hwords (hfunc.2 ▸ hrest l hl hfunc.1)
  have hshape : f.form.lexemes ++ ls =
      (Form.opening :: ⟨.keyword, "func"⟩ :: named f.name :: rest) ++ Form.closing :: ls := by
    rw [hlexemes]
    simp
  rw [hshape, functionNames_append_closing, functionNames, functionNames_cons_of_kind (by simp), hnone]
  rfl

/-! ### Headers among tokens -/

namespace Token

/-- The three tokens of a function header. -/
structure AreHeader (o func name : Token) : Prop where
  opens : o.kind = .leftParen
  func : func.isKeyword "func" = true
  name : name.kind = .id

/-- Some tokens have the header of a function of a given name among them. -/
def HasHeader (ts : List Token) (name : String) : Prop :=
  ∃ before o func id after, ts = before ++ o :: func :: id :: after ∧ AreHeader o func id ∧
    id.text = name

end Token

namespace Layout

open Token

theorem nodup_eraseDups (names : List String) : names.eraseDups.Nodup := by
  induction hlength : names.length using Nat.strongRecOn generalizing names with
  | _ length ih =>
    cases names with
    | nil => simp
    | cons name names =>
      rw [List.eraseDups_cons, List.nodup_cons, List.mem_eraseDups]
      refine ⟨by simp, ih _ ?_ _ rfl⟩
      have hle := List.length_filter_le (fun other => !other == name) names
      rw [List.length_cons] at hlength
      omega

theorem hasHeader_cons_iff {t func id : Token} {ts : List Token} {name : String} :
    HasHeader (t :: func :: id :: ts) name ↔
      AreHeader t func id ∧ id.text = name ∨ HasHeader (func :: id :: ts) name := by
  constructor
  · rintro ⟨before, o, func', id', after, hcut, hheader, hname⟩
    cases before with
    | nil =>
      cases hcut
      exact .inl ⟨hheader, hname⟩
    | cons b before =>
      exact .inr ⟨before, o, func', id', after, (List.cons.inj hcut).2, hheader, hname⟩
  · rintro (⟨hheader, hname⟩ | ⟨before, o, func', id', after, hcut, hheader, hname⟩)
    · exact ⟨[], t, func, id, ts, rfl, hheader, hname⟩
    · exact ⟨t :: before, o, func', id', after, by rw [hcut]; rfl, hheader, hname⟩

/-- The names found are those in the headers, wherever these stand. -/
theorem mem_namedFunctions_iff {ts : List Token} {name : String} :
    name ∈ namedFunctions ts ↔ HasHeader ts name := by
  fun_induction namedFunctions ts with
  | case1 t func id ts hheader ih =>
    have hheader : AreHeader t func id := by
      simp only [Bool.and_eq_true, beq_iff_eq] at hheader
      exact ⟨hheader.1.1, hheader.1.2, hheader.2⟩
    rw [hasHeader_cons_iff, List.mem_cons, ih, and_iff_right hheader, eq_comm]
  | case2 t func id ts hheader ih =>
    have hnone : ¬ AreHeader t func id := by
      intro h
      exact hheader (by simp [h.opens, h.func, h.name])
    rw [hasHeader_cons_iff, ih, iff_false_intro hnone, false_and, false_or]
  | case3 ts hshort =>
    refine iff_of_false (by simp) ?_
    rintro ⟨before, o, func, id, after, hcut, -⟩
    have hlength : 3 ≤ ts.length := by
      rw [hcut]
      simp only [List.length_append, List.length_cons]
      omega
    match ts with
    | [] | [_] | [_, _] => simp at hlength
    | t :: func :: id :: ts => exact hshort t func id ts rfl

end Layout

end BulkMemory
