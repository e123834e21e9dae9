import BulkMemory.Function
import BulkMemory.Machine.Memory

/-!
# What instructions do

The meaning of folded instructions on a machine with one memory. Operands are computed from left to
right and pass through a stack; a branch leaves the blocks around it up to the one with its label,
or begins another round of the loop with its label. A load or store outside the memory traps.
`rounds` bounds the rounds of each loop, so that every run ends; a run that reaches the bound is
`unfinished`, and all others end as they would without one.
-/

namespace BulkMemory.Machine
set_option autoImplicit false

/-- What instructions read and change. -/
structure State where
  memory : Memory
  locals : List (String × Word)
  /-- The operands that wait for their instruction, the last one first. -/
  operands : List Word := []
  /-- The number of stores so far. -/
  stores : Nat := 0
deriving DecidableEq, Repr, Inhabited

/-- How a run of instructions ends. -/
inductive Ending where
  /-- The instruction behind them is next. -/
  | next (state : State)
  | branch (label : String) (state : State)
  | trap (state : State)
  /-- There is no such local, label or operand. -/
  | stuck
  /-- A loop would begin more rounds than it may. -/
  | unfinished
deriving DecidableEq, Repr, Inhabited

/-- Go on behind the instructions. -/
def Ending.andThen : Ending → (State → Ending) → Ending
  | .next s, f => f s
  | ending, _ => ending

namespace State

/-- Put a word on the stack. -/
def push (s : State) (w : Word) : State := { s with operands := w :: s.operands }

/-- Take a word off the stack. -/
def pop (s : State) (f : Word → State → Ending) : Ending :=
  match s.operands with
  | w :: ws => f w { s with operands := ws }
  | [] => .stuck

/-- Take two words off the stack; the one that was put there first comes first. -/
def popTwo (s : State) (f : Word → Word → State → Ending) : Ending :=
  s.pop fun b s => s.pop fun a s => f a b s

/-- Push the value of a local. -/
def getLocal (s : State) (name : String) : Ending :=
  match s.locals.lookup name with
  | some w => .next (s.push w)
  | none => .stuck

/-- Give a local a new value. -/
def setLocal (s : State) (name : String) (w : Word) : Ending :=
  if (s.locals.lookup name).isSome then
    .next { s with locals := s.locals.map fun l => if l.1 = name then (name, w) else l }
  else .stuck

/-- Push the byte at an address. -/
def load (s : State) (address : Word) : Ending :=
  match s.memory.load? address.toNat with
  | some b => .next (s.push (b.setWidth 32))
  | none => .trap s

/-- Store the low byte of a word at an address. -/
def store (s : State) (address w : Word) : Ending :=
  match s.memory.store? address.toNat (w.setWidth 8) with
  | some memory => .next { s with memory, stores := s.stores + 1 }
  | none => .trap s

/-- Run the inside of a block, on a stack of its own. -/
def inBlock (s : State) (body : State → Ending) : Ending :=
  match body { s with operands := [] } with
  | .next t => if t.operands.isEmpty then .next { t with operands := s.operands } else .stuck
  | ending => ending

/-- Come out of a block with a label. -/
def catchBranch (s : State) (label : String) : Ending → Ending
  | .branch l t => if l = label then .next { t with operands := s.operands } else .branch l t
  | ending => ending

/-- Run the inside of a loop until it does not branch back. -/
def repeatLoop (label : String) (body : State → Ending) : Nat → State → Ending
  | 0, _ => .unfinished
  | n + 1, s =>
    match s.inBlock body with
    | .branch l t =>
      if l = label then repeatLoop label body n { t with operands := s.operands } else .branch l t
    | ending => ending

end State

end Machine

/-- The result of an operator: arithmetic is modulo the number of words, and a comparison gives one
or zero. -/
def BinaryOp.apply : BinaryOp → Word → Word → Word
  | add, a, b => a + b
  | sub, a, b => a - b
  | gtU, a, b => if b < a then 1 else 0
  | geU, a, b => if b ≤ a then 1 else 0

open Machine

mutual

/-- Carry out an instruction. -/
def Instr.exec (rounds : Nat) : Instr → State → Ending
  | .localGet name, s => s.getLocal name
  | .localSet name value, s =>
    (value.exec rounds s).andThen fun s => s.pop fun w s => s.setLocal name w
  | .const w, s => .next (s.push w)
  | .binary op lhs rhs, s =>
    (lhs.exec rounds s).andThen fun s =>
      (rhs.exec rounds s).andThen fun s => s.popTwo fun a b s => .next (s.push (op.apply a b))
  | .eqz value, s =>
    (value.exec rounds s).andThen fun s =>
      s.pop fun w s => .next (s.push (if w = 0 then 1 else 0))
  | .load8U addr, s => (addr.exec rounds s).andThen fun s => s.pop fun a s => s.load a
  | .store8 addr value, s =>
    (addr.exec rounds s).andThen fun s =>
      (value.exec rounds s).andThen fun s => s.popTwo fun a w s => s.store a w
  | .block label body, s =>
    s.catchBranch label (s.inBlock fun s => Instr.execAll rounds body s)
  | .loop label body, s =>
    State.repeatLoop label (fun s => Instr.execAll rounds body s) rounds s
  | .ifElse cond thenBody elseBody, s =>
    (cond.exec rounds s).andThen fun s => s.pop fun w s =>
      s.inBlock fun s =>
        if w = 0 then Instr.execAll rounds elseBody s else Instr.execAll rounds thenBody s
  | .br label, s => .branch label s
  | .brIf label cond, s =>
    (cond.exec rounds s).andThen fun s => s.pop fun w s =>
      if w = 0 then .next s else .branch label s
  | .comment _, s => .next s

/-- Carry out consecutive instructions. -/
def Instr.execAll (rounds : Nat) : List Instr → State → Ending
  | [], s => .next s
  | i :: is, s => (i.exec rounds s).andThen fun s => Instr.execAll rounds is s

end

namespace Function

/-- The state in which a call begins: the parameters hold the arguments and the locals zero. -/
def entry (f : Function) (arguments : List Word) (memory : Memory) : State where
  memory
  locals := f.params.zip arguments ++ f.locals.map fun l => (l, 0)

/-- Call a function. No branch leaves a function. -/
def call (f : Function) (rounds : Nat) (arguments : List Word) (memory : Memory) : Ending :=
  if arguments.length = f.params.length then
    match Instr.execAll rounds f.body (f.entry arguments memory) with
    | .branch _ _ => .stuck
    | ending => ending
  else .stuck

end Function

end BulkMemory
