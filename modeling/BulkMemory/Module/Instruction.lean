import BulkMemory.Module.Type

/-!
# Instructions and fields of a module

Instructions are a flat list, in which blocks are opened and closed by instructions of their own.
What they refer to is a parameter: a `Ref` as it stands in the text, which may be a name, or a plain
index once names are resolved. `Instruction.resolve` and `Field.resolve` go from one to the other.
-/

namespace BulkMemory.Module
set_option autoImplicit false

/-- A kind of thing that has an index. -/
inductive Space where
  | type
  | func
  | table
  | memory
  | global
  | elem
  | data
  | local
  | label
deriving DecidableEq, Repr, Inhabited

/-- How the text points to a thing. -/
inductive Target where
  | index (n : Nat)
  | name (id : String)
deriving DecidableEq, Repr, Inhabited

/-- A reference as it stands in the text. -/
structure Ref where
  space : Space
  target : Target
deriving DecidableEq, Repr, Inhabited

/-- The type of a function or block as it is written: by a reference, in full, or both. -/
structure TypeUse (ρ : Type) where
  type? : Option ρ
  /-- The parameters written in full, with their names. -/
  params : List (Option String × ValType)
  results : List ValType
deriving Repr, Inhabited

/-- The type that is written in full. -/
def TypeUse.inline {ρ : Type} (t : TypeUse ρ) : FuncType := ⟨t.params.map Prod.snd, t.results⟩

/-- What opens a block. -/
inductive BlockKind where
  | block
  | loop
  | ifThen
deriving DecidableEq, Repr, Inhabited

/-- An instruction whose references are of type `ρ`. -/
inductive Instruction (ρ : Type) where
  /-- An operator on the operand stack alone. -/
  | simple (mnemonic : String) (type : FuncType)
  /-- A load or store; alignments are given as powers of two. -/
  | access (memory : ρ) (type : FuncType) (natural align offset : Nat)
  | memorySize (memory : ρ)
  | memoryGrow (memory : ρ)
  | localGet (x : ρ)
  | localSet (x : ρ)
  | localTee (x : ρ)
  | globalGet (x : ρ)
  | globalSet (x : ρ)
  | drop
  | select
  | unreachable
  | enter (kind : BlockKind) (label : Option String) (type : TypeUse ρ)
  | otherwise (label : Option String)
  | close (label : Option String)
  | br (label : ρ)
  | brIf (label : ρ)
  | brTable (labels : List ρ) (default : ρ)
  | leave
  | call (f : ρ)
  | tailCall (f : ρ)
  | callIndirect (table : ρ) (type : TypeUse ρ)
  /-- An instruction of an extension that the machine lacks, with all it refers to. -/
  | extension (mnemonic : String) (uses : List ρ)
deriving Repr, Inhabited

/-- What a module defines or imports. -/
inductive Entity (ρ : Type) where
  | type (type : FuncType)
  /-- A function; an imported one has no locals and no body. -/
  | func (type : TypeUse ρ) (locals : List (Option String × ValType))
      (body : List (Instruction ρ))
  | table (type : TableType)
  | memory (type : MemoryType)
  | global (type : GlobalType) (init : List (Instruction ρ))
  /-- Functions to put into a table; without a place they wait for an instruction. -/
  | elem (place? : Option (ρ × List (Instruction ρ))) (functions : List ρ)
  /-- Bytes to put into a memory; without a place they wait for an instruction. -/
  | data (place? : Option (ρ × List (Instruction ρ)))
deriving Repr, Inhabited

/-- A field of a module. -/
inductive Field (ρ : Type) where
  | define (id : Option String) (exports : List String) (imported : Bool) (entity : Entity ρ)
  | export (name : String) (what : Space) (ref : ρ)
  | start (ref : ρ)
deriving Repr, Inhabited

variable {ρ σ : Type}

/-- The index space of an entity. -/
def Entity.space : Entity ρ → Space
  | type _ => .type
  | func _ _ _ => .func
  | table _ => .table
  | memory _ => .memory
  | global _ _ => .global
  | elem _ _ => .elem
  | data _ => .data

/-- Resolve the references of a written type. -/
def TypeUse.resolve (f : ρ → Option σ) (t : TypeUse ρ) : Option (TypeUse σ) := do
  return { type? := ← t.type?.mapM f, params := t.params, results := t.results }

/-- Resolve the references of an instruction. -/
def Instruction.resolve (f : ρ → Option σ) : Instruction ρ → Option (Instruction σ)
  | simple mnemonic type => some (.simple mnemonic type)
  | access memory type natural align offset => do
    return .access (← f memory) type natural align offset
  | memorySize m => memorySize <$> f m
  | memoryGrow m => memoryGrow <$> f m
  | localGet x => localGet <$> f x
  | localSet x => localSet <$> f x
  | localTee x => localTee <$> f x
  | globalGet x => globalGet <$> f x
  | globalSet x => globalSet <$> f x
  | drop => some drop
  | select => some select
  | unreachable => some unreachable
  | enter kind label type => enter kind label <$> type.resolve f
  | otherwise label => some (otherwise label)
  | close label => some (close label)
  | br l => br <$> f l
  | brIf l => brIf <$> f l
  | brTable ls l => do return brTable (← ls.mapM f) (← f l)
  | leave => some leave
  | call g => call <$> f g
  | tailCall g => tailCall <$> f g
  | callIndirect table type => do return callIndirect (← f table) (← type.resolve f)
  | extension mnemonic uses => extension mnemonic <$> uses.mapM f

end BulkMemory.Module
