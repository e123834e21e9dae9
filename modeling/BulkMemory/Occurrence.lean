import BulkMemory.Layout
import BulkMemory.Replacement
import BulkMemory.Text.Edit

/-!
# Instructions in a module and their exchange

An `Occurrence` is a bulk memory instruction that has a replacement, together with its memory
indices if all of them are written out. `Occurrence.inTokens` finds them and refuses an instruction
that names a memory other than the first; `exchangeAll` exchanges each for a call.
-/

namespace BulkMemory
set_option autoImplicit false

/-- What follows a mnemonic. -/
inductive Indices where
  /-- Not all the indices are written out, so none is taken. -/
  | omitted
  /-- All are written out and zero, the last one ends at `stop`, and `rest` follows. -/
  | zeros (stop : Nat) (rest : List Token)
  /-- One of them is not zero. -/
  | unsupported (operand : Token)
deriving Repr

/-- Read `count` more indices behind the offset `stop`, with trivia anywhere between them. -/
def Indices.read (stop : Nat) : (count : Nat) → List Token → Indices
  | 0, ts => .zeros stop ts
  | _ + 1, [] => .omitted
  | count + 1, t :: ts =>
    if t.isTrivia then read stop (count + 1) ts
    else if t.isZero then read t.stop count ts
    else if t.kind = .number ∨ t.kind = .id then .unsupported t
    else .omitted

theorem Indices.length_rest_le {stop count : Nat} {ts : List Token} {stop' : Nat}
    {rest : List Token} (h : read stop count ts = .zeros stop' rest) :
    rest.length ≤ ts.length := by
  fun_induction read stop count ts with
  | case1 => simp_all
  | case2 | case5 | case6 => cases h
  | case3 _ _ _ _ _ ih | case4 _ _ _ _ _ _ ih => exact Nat.le_succ_of_le (ih h)

/-- An instruction to exchange: its bytes, indices included, and the call that takes its place. -/
structure Occurrence where
  op : Op
  span : Span
  target : String
deriving DecidableEq, Repr

namespace Occurrence

/-- The edit that exchanges an instruction for a call. -/
def edit (o : Occurrence) : Edit := ⟨o.span, "call " ++ o.target⟩

/-- The replacement for a token, if it is an instruction that has one. -/
def replacementFor? (replacements : List Replacement) (t : Token) : Option Replacement :=
  if t.kind = .keyword then replacements.find? fun r => t.text == r.op.mnemonic else none

/-- The instructions among some tokens that have a replacement, from left to right. -/
def inTokens (replacements : List Replacement) : List Token → Except PassError (List Occurrence)
  | [] => .ok []
  | t :: ts =>
    match replacementFor? replacements t with
    | none => inTokens replacements ts
    | some r =>
      match _h : Indices.read t.stop r.op.indexCount ts with
      | .omitted => do
        let later ← inTokens replacements ts
        return ⟨r.op, t.span, r.target⟩ :: later
      | .zeros stop rest => do
        let later ← inTokens replacements rest
        return ⟨r.op, ⟨t.start, stop⟩, r.target⟩ :: later
      | .unsupported operand =>
        .error (.unsupportedOperand r.op.mnemonic operand.text operand.position)
termination_by ts => ts.length
decreasing_by
  · simp
  · simp
  · exact Nat.lt_succ_of_le (Indices.length_rest_le ‹_›)

end Occurrence

/-- A text whose instructions were exchanged, and how many there were of each kind. -/
structure Exchanged where
  output : String
  copies : Nat
  fills : Nat
deriving DecidableEq, Repr, Inhabited

/-- Exchange every instruction that has a replacement for a call. -/
def exchangeAll (source : String) (replacements : List Replacement) :
    Except PassError Exchanged := do
  let tokens ← (tokenize source).mapError .lex
  let found ← Occurrence.inTokens replacements tokens
  match Edit.applyAll? (found.map Occurrence.edit) source with
  | some output =>
    return ⟨output, found.countP (·.op = .copy), found.countP (·.op = .fill)⟩
  | none => throw .misplacedEdit

end BulkMemory
