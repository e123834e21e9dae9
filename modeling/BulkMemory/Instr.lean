import BulkMemory.Outline

/-!
# Folded instructions

The trees in which the inserted functions are written: each instruction holds its operands. Words
are 32 bits wide, and locals and labels go by name. `Instr.outline` writes a tree in the folded form
of module text, on one line where that is short, else on several.
-/

namespace BulkMemory
set_option autoImplicit false

/-- A 32-bit word. -/
abbrev Word := BitVec 32

/-- The operators on two words. The comparisons are unsigned. -/
inductive BinaryOp where
  | add
  | sub
  | gtU
  | geU
deriving DecidableEq, Repr, Inhabited

/-- The keyword of an operator. -/
def BinaryOp.mnemonic : BinaryOp → String
  | add => "i32.add"
  | sub => "i32.sub"
  | gtU => "i32.gt_u"
  | geU => "i32.ge_u"

/-- An instruction with its operands. -/
inductive Instr where
  | localGet (name : String)
  | localSet (name : String) (value : Instr)
  | const (value : Word)
  | binary (op : BinaryOp) (lhs rhs : Instr)
  | eqz (value : Instr)
  | load8U (addr : Instr)
  | store8 (addr value : Instr)
  | block (label : String) (body : List Instr)
  | loop (label : String) (body : List Instr)
  | ifElse (cond : Instr) (thenBody elseBody : List Instr)
  | br (label : String)
  | brIf (label : String) (cond : Instr)
  | comment (text : String)
deriving Repr, Inhabited

namespace Instr

/-- The keyword of an instruction and what follows it other than operands. -/
def head : Instr → String
  | localGet name => "local.get $" ++ name
  | localSet name _ => "local.set $" ++ name
  | const value => "i32.const " ++ toString value.toInt
  | binary op _ _ => op.mnemonic
  | eqz _ => "i32.eqz"
  | load8U _ => "i32.load8_u"
  | store8 _ _ => "i32.store8"
  | block label _ => "block $" ++ label
  | loop label _ => "loop $" ++ label
  | ifElse _ _ _ => "if"
  | br label => "br $" ++ label
  | brIf label _ => "br_if $" ++ label
  | comment text => ";; " ++ text

/-- A form on one line. -/
def folded (head : String) (operands : List String) : String :=
  "(" ++ head ++ String.join (operands.map (" " ++ ·)) ++ ")"

/-- An instruction on one line; `none` for stores, for control and for comments, and for whatever
has one of these as an operand. -/
def inline? : Instr → Option String
  | i@(localGet _) | i@(const _) | i@(br _) => some (folded i.head [])
  | i@(localSet _ value) | i@(eqz value) | i@(load8U value) | i@(brIf _ value) =>
    value.inline?.map fun operand => folded i.head [operand]
  | i@(binary _ lhs rhs) =>
    match lhs.inline?, rhs.inline? with
    | some left, some right => some (folded i.head [left, right])
    | _, _ => none
  | store8 _ _ | block _ _ | loop _ _ | ifElse _ _ _ | comment _ => none

/-- A form on several lines. -/
def spread (head : String) (inner : List Outline) : List Outline :=
  [.line ("(" ++ head), .nested inner, .line ")"]

/-- A form on one line if that is possible, else on several. -/
def spreadUnless (inline? : Option String) (head : String) (inner : List Outline) : List Outline :=
  match inline? with
  | some text => [.line text]
  | none => spread head inner

mutual

/-- The lines of an instruction. -/
def outline : Instr → List Outline
  | i@(localGet _) | i@(const _) | i@(br _) => spreadUnless i.inline? i.head []
  | i@(localSet _ value) | i@(eqz value) | i@(load8U value) | i@(brIf _ value) =>
    spreadUnless i.inline? i.head value.outline
  | i@(binary _ lhs rhs) => spreadUnless i.inline? i.head (lhs.outline ++ rhs.outline)
  | i@(store8 addr value) => spread i.head (addr.outline ++ value.outline)
  | i@(block _ body) | i@(loop _ body) => spread i.head (outlineAll body)
  | ifElse cond thenBody elseBody =>
    let opening :=
      match cond.inline? with
      | some text => [.line ("(if " ++ text)]
      | none => [.line "(if", .nested cond.outline]
    let thenPart := spread "then" (outlineAll thenBody)
    let elsePart := if elseBody.isEmpty then [] else spread "else" (outlineAll elseBody)
    opening ++ [.nested (thenPart ++ elsePart), .line ")"]
  | i@(comment _) => [.line i.head]

/-- The lines of consecutive instructions. -/
def outlineAll : List Instr → List Outline
  | [] => []
  | i :: is => i.outline ++ outlineAll is

end

/-- The text of an instruction. -/
def render (i : Instr) (indent : String) (depth : Nat) : String :=
  Outline.render i.outline indent depth

end Instr

end BulkMemory
