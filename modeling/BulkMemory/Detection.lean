import BulkMemory.Op
import BulkMemory.Text.Search
import BulkMemory.Token

/-!
# Which bulk memory instructions a module uses

Only keywords count: a mnemonic inside a comment, a string or a longer name is none.
`Detection.scan` stops as soon as both instructions are seen, and `mayOccur` is a quick test on the
bare text, after which a module without either word need not be cut into lexemes at all.
-/

namespace BulkMemory
set_option autoImplicit false

/-- The bulk memory instructions found in a module. -/
structure Detection where
  copy : Bool := false
  fill : Bool := false
deriving DecidableEq, Repr, Inhabited

namespace Detection

/-- Whether an instruction was found. -/
def has (d : Detection) : Op → Bool
  | .copy => d.copy
  | .fill => d.fill

/-- Record that an instruction was found. -/
def add (d : Detection) : Op → Detection
  | .copy => { d with copy := true }
  | .fill => { d with fill := true }

/-- Whether no instruction was found. -/
def isEmpty (d : Detection) : Bool := !d.copy && !d.fill

/-- The instructions found, in the order in which their replacements are inserted. -/
def ops (d : Detection) : List Op := Op.all.filter d.has

end Detection

/-- The bulk memory instruction that a lexeme is. -/
def Lexeme.op? (l : Lexeme) : Option Op :=
  if l.kind = .keyword then Op.ofMnemonic? l.text else none

namespace Detection

/-- Add the instructions among some tokens to those already found. -/
def scanFrom (found : Detection) : List Token → Detection
  | [] => found
  | t :: ts =>
    if found.copy && found.fill then found
    else
      match t.op? with
      | some op => scanFrom (found.add op) ts
      | none => scanFrom found ts

/-- The instructions among the tokens of a module. -/
def scan (ts : List Token) : Detection := scanFrom {} ts

/-- Whether some mnemonic occurs anywhere in a text, be it in a comment. -/
def mayOccur (source : String) : Bool :=
  Op.all.any fun op => occursIn op.mnemonic.toList source.toList

end Detection

end BulkMemory
