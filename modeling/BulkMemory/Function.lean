import BulkMemory.Instr

/-!
# Functions on words

A function has 32-bit parameters and locals and a body of folded instructions; `Function.render`
writes it as a module field. `Function.copyBytes` and `Function.fillBytes` do what the bulk memory
instructions do, one byte at a time.
-/

namespace BulkMemory
set_option autoImplicit false

/-- A function without results whose parameters and locals are words. -/
structure Function where
  /-- The identifier, without the dollar sign. -/
  name : String
  params : List String
  locals : List String
  body : List Instr
deriving Repr, Inhabited

namespace Function

/-- The first line of a function: its name and its parameters. -/
def header (f : Function) : String :=
  "(func $" ++ f.name ++ String.join (f.params.map fun p => " (param $" ++ p ++ " i32)")

/-- The lines of a function. -/
def outline (f : Function) : List Outline :=
  let locals := f.locals.map fun l => Outline.line ("(local $" ++ l ++ " i32)")
  [.line f.header, .nested (locals ++ Instr.outlineAll f.body), .line ")"]

/-- The text of a function, the first line at the given depth. -/
def render (f : Function) (indent : String) (depth : Nat) : String :=
  Outline.render f.outline indent depth

section Routines

open Instr BinaryOp

/-- Copy the byte at `src + i` to `dest + i`. -/
def copyByte : Instr :=
  store8 (binary add (localGet "dest") (localGet "i"))
    (load8U (binary add (localGet "src") (localGet "i")))

/-- Store the low byte of `val` at `dest + i`. -/
def fillByte : Instr :=
  store8 (binary add (localGet "dest") (localGet "i")) (localGet "val")

/-- Run a step for every `i` from `0` up to `len`. -/
def countUp (done again : String) (step : Instr) : List Instr :=
  [localSet "i" (const 0),
   block done
    [loop again
      [brIf done (binary geU (localGet "i") (localGet "len")),
       step,
       localSet "i" (binary add (localGet "i") (const 1)),
       br again]]]

/-- Run a step for every `i` from `len` down to `0`. -/
def countDown (done again : String) (step : Instr) : List Instr :=
  [localSet "i" (localGet "len"),
   block done
    [loop again
      [brIf done (eqz (localGet "i")),
       localSet "i" (binary sub (localGet "i") (const 1)),
       step,
       br again]]]

/-- Copy `len` bytes from `src` to `dest`. The direction is chosen so that no byte of the source is
overwritten before it is read, however the two ranges overlap. -/
def copyBytes (name : String) : Function where
  name
  params := ["dest", "src", "len"]
  locals := ["i"]
  body :=
    [ifElse (binary gtU (localGet "dest") (localGet "src"))
      (comment "Backward copy (dest > src)" :: countDown "done_back" "loop_back" copyByte)
      (comment "Forward copy (dest <= src)" :: countUp "done_fwd" "loop_fwd" copyByte)]

/-- Store the low byte of `val` into the `len` bytes from `dest` on. -/
def fillBytes (name : String) : Function where
  name
  params := ["dest", "val", "len"]
  locals := ["i"]
  body := countUp "done" "loop" fillByte

end Routines

end Function

end BulkMemory
