import BulkMemory.Module.Type

/-!
# Operators

The instructions that work on the operand stack, on a constant or on a memory access, each with the
type it has.
-/

namespace BulkMemory.Module
set_option autoImplicit false

namespace Operator

open ValType

/-- Operators whose keywords are the given words behind the name of a type. -/
def family (type : String) (signature : FuncType) (words : List String) :
    List (String × FuncType) :=
  words.map fun w => (type ++ "." ++ w, signature)

/-- The operators on integers of a type. -/
def onIntegers (name : String) (t : ValType) : List (String × FuncType) :=
  family name ⟨[t], [t]⟩ ["clz", "ctz", "popcnt", "extend8_s", "extend16_s"] ++
  family name ⟨[t, t], [t]⟩
    ["add", "sub", "mul", "div_s", "div_u", "rem_s", "rem_u", "and", "or", "xor", "shl", "shr_s",
     "shr_u", "rotl", "rotr"] ++
  family name ⟨[t], [i32]⟩ ["eqz"] ++
  family name ⟨[t, t], [i32]⟩
    ["eq", "ne", "lt_s", "lt_u", "gt_s", "gt_u", "le_s", "le_u", "ge_s", "ge_u"] ++
  family name ⟨[f32], [t]⟩ ["trunc_f32_s", "trunc_f32_u", "trunc_sat_f32_s", "trunc_sat_f32_u"] ++
  family name ⟨[f64], [t]⟩ ["trunc_f64_s", "trunc_f64_u", "trunc_sat_f64_s", "trunc_sat_f64_u"]

/-- The operators on floating point numbers of a type. -/
def onFloats (name : String) (t : ValType) : List (String × FuncType) :=
  family name ⟨[t], [t]⟩ ["abs", "neg", "ceil", "floor", "trunc", "nearest", "sqrt"] ++
  family name ⟨[t, t], [t]⟩ ["add", "sub", "mul", "div", "min", "max", "copysign"] ++
  family name ⟨[t, t], [i32]⟩ ["eq", "ne", "lt", "gt", "le", "ge"] ++
  family name ⟨[i32], [t]⟩ ["convert_i32_s", "convert_i32_u"] ++
  family name ⟨[i64], [t]⟩ ["convert_i64_s", "convert_i64_u"]

/-- The operators without constants. -/
def simple : List (String × FuncType) :=
  [("nop", ⟨[], []⟩)] ++
  onIntegers "i32" i32 ++ onIntegers "i64" i64 ++ onFloats "f32" f32 ++ onFloats "f64" f64 ++
  [("i64.extend32_s", ⟨[i64], [i64]⟩), ("i32.wrap_i64", ⟨[i64], [i32]⟩),
   ("i64.extend_i32_s", ⟨[i32], [i64]⟩), ("i64.extend_i32_u", ⟨[i32], [i64]⟩),
   ("f32.demote_f64", ⟨[f64], [f32]⟩), ("f64.promote_f32", ⟨[f32], [f64]⟩),
   ("i32.reinterpret_f32", ⟨[f32], [i32]⟩), ("i64.reinterpret_f64", ⟨[f64], [i64]⟩),
   ("f32.reinterpret_i32", ⟨[i32], [f32]⟩), ("f64.reinterpret_i64", ⟨[i64], [f64]⟩)]

/-- Loads of a type: the keyword's last part and the size as a power of two. -/
def loads (name : String) (t : ValType) (words : List (String × Nat)) :
    List (String × FuncType × Nat) :=
  words.map fun (w, size) => (name ++ "." ++ w, ⟨[i32], [t]⟩, size)

/-- Stores of a type. -/
def stores (name : String) (t : ValType) (words : List (String × Nat)) :
    List (String × FuncType × Nat) :=
  words.map fun (w, size) => (name ++ "." ++ w, ⟨[i32, t], []⟩, size)

/-- The loads and stores. -/
def accesses : List (String × FuncType × Nat) :=
  loads "i32" i32
    [("load", 2), ("load8_s", 0), ("load8_u", 0), ("load16_s", 1), ("load16_u", 1)] ++
  loads "i64" i64
    [("load", 3), ("load8_s", 0), ("load8_u", 0), ("load16_s", 1), ("load16_u", 1),
     ("load32_s", 2), ("load32_u", 2)] ++
  loads "f32" f32 [("load", 2)] ++ loads "f64" f64 [("load", 3)] ++
  stores "i32" i32 [("store", 2), ("store8", 0), ("store16", 1)] ++
  stores "i64" i64 [("store", 3), ("store8", 0), ("store16", 1), ("store32", 2)] ++
  stores "f32" f32 [("store", 2)] ++ stores "f64" f64 [("store", 3)]

/-- The operators that may stand in a constant expression. -/
def constant : List String :=
  ["i32.const", "i64.const", "f32.const", "f64.const", "i32.add", "i32.sub", "i32.mul", "i64.add",
   "i64.sub", "i64.mul"]

end Operator

end BulkMemory.Module
