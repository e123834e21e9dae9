/-!
# The two bulk memory instructions

An `Op` is one of the two instructions that older machines lack. Its mnemonic names it in module
text, and it may carry memory indices there, all of which are zero in a module with one memory.
-/

namespace BulkMemory
set_option autoImplicit false

/-- A bulk memory instruction. -/
inductive Op where
  | copy
  | fill
deriving DecidableEq, Repr, Inhabited

namespace Op

/-- Both instructions, in the order in which their replacements are inserted. -/
def all : List Op := [copy, fill]

/-- The keyword of an instruction. -/
def mnemonic : Op → String
  | copy => "memory.copy"
  | fill => "memory.fill"

/-- How many memory indices an instruction may carry. -/
def indexCount : Op → Nat
  | copy => 2
  | fill => 1

/-- The instruction with the given keyword. -/
def ofMnemonic? (text : String) : Option Op :=
  all.find? fun op => op.mnemonic == text

theorem mem_all (op : Op) : op ∈ all := by
  cases op <;> decide

@[simp] theorem ofMnemonic?_mnemonic (op : Op) : ofMnemonic? op.mnemonic = some op := by
  cases op <;> decide

theorem mnemonic_eq_of_ofMnemonic? {text : String} {op : Op} (h : ofMnemonic? text = some op) :
    op.mnemonic = text := by
  simpa using List.find?_some h

end Op

end BulkMemory
