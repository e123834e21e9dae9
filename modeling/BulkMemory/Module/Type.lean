/-!
# Types of WebAssembly modules

The types of values, functions, tables, memories and globals.
-/

namespace BulkMemory.Module
set_option autoImplicit false

/-- The type of a value on the operand stack. -/
inductive ValType where
  | i32
  | i64
  | f32
  | f64
  | v128
  | funcref
  | externref
deriving DecidableEq, Repr, Inhabited

namespace ValType

/-- The keyword of a type. -/
def keywords : List (String × ValType) :=
  [("i32", i32), ("i64", i64), ("f32", f32), ("f64", f64), ("v128", v128), ("funcref", funcref),
   ("externref", externref)]

/-- Whether values of a type are references. -/
def isReference : ValType → Bool
  | funcref | externref => true
  | _ => false

end ValType

/-- The type of a function or of a block: what it takes off the operand stack, and what it leaves
there, the top of the stack last. -/
structure FuncType where
  params : List ValType
  results : List ValType
deriving DecidableEq, Repr, Inhabited

/-- The least and the greatest size of a table or memory. -/
structure Limits where
  min : Nat
  max? : Option Nat
deriving DecidableEq, Repr, Inhabited

/-- The type of a table. -/
structure TableType where
  limits : Limits
  element : ValType
deriving DecidableEq, Repr, Inhabited

/-- The type of a memory, in pages of 64 KiB. -/
structure MemoryType where
  limits : Limits
  shared : Bool := false
  /-- Whether addresses have 64 bits. -/
  wide : Bool := false
deriving DecidableEq, Repr, Inhabited

/-- The type of a global. -/
structure GlobalType where
  type : ValType
  isMutable : Bool
deriving DecidableEq, Repr, Inhabited

end BulkMemory.Module
