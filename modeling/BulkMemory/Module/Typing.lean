import BulkMemory.Module.Instruction
import BulkMemory.Module.Operator
import BulkMemory.Text.Numeral

/-!
# Typing of instructions

Whether a list of instructions is well typed. The state of the check is the operand stack of the
innermost open block with the types of its values, and the blocks around it. Behind an instruction
that never goes on the stack holds whatever is asked of it.
-/

namespace BulkMemory.Module
set_option autoImplicit false

/-- The things that instructions may refer to, by index. -/
structure Context where
  types : List FuncType := []
  /-- The types of the functions; `none` for one whose type does not exist. -/
  functions : List (Option FuncType) := []
  tables : List TableType := []
  memories : List MemoryType := []
  globals : List GlobalType := []
  /-- The parameters and locals of the function. -/
  locals : List ValType := []
  /-- The results of the function. -/
  results : List ValType := []
deriving Repr, Inhabited

/-- The types of the values on an operand stack, the top first; `none` is a value of any type. -/
abbrev Operands := List (Option ValType)

/-- An open block. -/
structure Frame where
  kind : BlockKind
  type : FuncType
  /-- The operands outside of the block. -/
  outer : Operands
  /-- Whether the instruction before the block never goes on. -/
  outerUnreachable : Bool
deriving Repr, Inhabited

/-- The state of the check. -/
structure Typing where
  operands : Operands
  /-- Whether the next instruction is never reached. -/
  unreachable : Bool
  /-- The open blocks, the innermost first. The body of a function is the outermost. -/
  frames : List Frame
deriving Repr, Inhabited

/-- The type that a written type means. -/
def Context.funcType? (ctx : Context) (t : TypeUse Nat) : Option FuncType :=
  match t.type? with
  | some n => ctx.types[n]?
  | none => some t.inline

/-- What a jump to a block must leave on the stack: the beginning of a loop takes its parameters. -/
def Frame.labelTypes (f : Frame) : List ValType :=
  if f.kind = .loop then f.type.params else f.type.results

namespace Typing

/-- Take a value of any type off the stack. -/
def popAny (s : Typing) : Option (Option ValType × Typing) :=
  match s.operands with
  | [] => if s.unreachable then some (none, s) else none
  | v :: vs => some (v, { s with operands := vs })

/-- Take a value of a type off the stack. -/
def pop (s : Typing) (t : ValType) : Option Typing := do
  let (v, s) ← s.popAny
  if v.all (· == t) then some s else none

/-- Take values off the stack, the last one first. -/
def popAll (s : Typing) (ts : List ValType) : Option Typing :=
  ts.reverse.foldlM pop s

/-- Put values on the stack, the last one on top. -/
def pushAll (s : Typing) (ts : List ValType) : Typing :=
  { s with operands := ts.reverse.map some ++ s.operands }

/-- Take the parameters of a type off the stack and put its results there. -/
def apply (s : Typing) (type : FuncType) : Option Typing :=
  (s.popAll type.params).map (·.pushAll type.results)

/-- Mark what follows as never reached. -/
def stop (s : Typing) : Typing := { s with operands := [], unreachable := true }

/-- What a jump to a label must leave on the stack. -/
def labelTypes? (s : Typing) (label : Nat) : Option (List ValType) :=
  s.frames[label]?.map Frame.labelTypes

/-- Open a block. -/
def enter (s : Typing) (kind : BlockKind) (type : FuncType) : Option Typing := do
  let s ← if kind = .ifThen then s.pop .i32 else some s
  let s ← s.popAll type.params
  let frame : Frame := ⟨kind, type, s.operands, s.unreachable⟩
  return pushAll ⟨[], false, frame :: s.frames⟩ type.params

/-- Check that a block leaves its results and nothing else. -/
def finish (s : Typing) : Option (Frame × List Frame) := do
  match s.frames with
  | [] => none
  | frame :: frames =>
    let rest ← s.popAll frame.type.results
    if rest.operands.isEmpty then some (frame, frames) else none

/-- Go on with the second branch of a condition. -/
def otherwise (s : Typing) : Option Typing := do
  let (frame, frames) ← s.finish
  if frame.kind = .ifThen then
    return pushAll ⟨[], false, { frame with kind := .block } :: frames⟩ frame.type.params
  else none

/-- Close a block. A condition with one branch must leave what it takes. -/
def close (s : Typing) : Option Typing := do
  let (frame, frames) ← s.finish
  if frame.kind = .ifThen ∧ frame.type.params ≠ frame.type.results then none
  else return pushAll ⟨frame.outer, frame.outerUnreachable, frames⟩ frame.type.results

/-- Jump to one of several labels, which must take as many values as the last one. -/
def branchTable (s : Typing) (labels : List Nat) (default : Nat) : Option Typing := do
  let s ← s.pop .i32
  let last ← s.labelTypes? default
  for label in labels do
    let ts ← s.labelTypes? label
    let _ ← s.popAll ts
    if ts.length ≠ last.length then failure
  return (← s.popAll last).stop

/-- Choose between two numbers. -/
def select (s : Typing) : Option Typing := do
  let s ← s.pop .i32
  let (a, s) ← s.popAny
  let (b, s) ← s.popAny
  let isNumber (v : Option ValType) : Bool := v.all fun t => !t.isReference
  if isNumber a && isNumber b && (a.isNone || b.isNone || a == b) then
    return { s with operands := (a <|> b) :: s.operands }
  else none

end Typing

open Typing

/-- Check one instruction. -/
def checkInstruction (ctx : Context) (s : Typing) : Instruction Nat → Option Typing
  | .simple _ type => s.apply type
  | .access memory type natural align offset =>
    if memory < ctx.memories.length ∧ align ≤ natural ∧ hasBits 32 offset then
      s.apply type
    else none
  | .memorySize memory =>
    if memory < ctx.memories.length then s.apply ⟨[], [.i32]⟩ else none
  | .memoryGrow memory =>
    if memory < ctx.memories.length then s.apply ⟨[.i32], [.i32]⟩ else none
  | .localGet x => do s.apply ⟨[], [← ctx.locals[x]?]⟩
  | .localSet x => do s.apply ⟨[← ctx.locals[x]?], []⟩
  | .localTee x => do
    let t ← ctx.locals[x]?
    s.apply ⟨[t], [t]⟩
  | .globalGet x => do s.apply ⟨[], [(← ctx.globals[x]?).type]⟩
  | .globalSet x => do
    let g ← ctx.globals[x]?
    if g.isMutable then s.apply ⟨[g.type], []⟩ else none
  | .drop => do
    let (_, s) ← s.popAny
    return s
  | .select => s.select
  | .unreachable => some s.stop
  | .enter kind _ type => do s.enter kind (← ctx.funcType? type)
  | .otherwise _ => s.otherwise
  | .close _ => s.close
  | .br label => do
    let s ← s.popAll (← s.labelTypes? label)
    return s.stop
  | .brIf label => do
    let s ← s.pop .i32
    let ts ← s.labelTypes? label
    s.apply ⟨ts, ts⟩
  | .brTable labels default => s.branchTable labels default
  | .leave => (s.popAll ctx.results).map stop
  | .call f => do s.apply (← (← ctx.functions[f]?))
  | .tailCall f => do
    let type ← (← ctx.functions[f]?)
    let s ← s.popAll type.params
    if type.results = ctx.results then return s.stop else none
  | .callIndirect table type => do
    let type ← ctx.funcType? type
    let _ ← ctx.tables[table]?
    (← s.pop .i32).apply type
  | .extension _ _ => none

/-- Whether a body leaves exactly the given results. -/
def isWellTyped (ctx : Context) (results : List ValType) (body : List (Instruction Nat)) : Bool :=
  let start : Typing := ⟨[], false, [⟨.block, ⟨[], results⟩, [], false⟩]⟩
  -- Behind the end of the body nothing may follow.
  let step (s : Typing) (i : Instruction Nat) : Option Typing :=
    if s.frames.isEmpty then none else checkInstruction ctx s i
  match (body ++ [Instruction.close none]).foldlM step start with
  | some s => s.frames.isEmpty
  | none => false

end BulkMemory.Module
