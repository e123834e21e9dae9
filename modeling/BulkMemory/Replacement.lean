import BulkMemory.Config
import BulkMemory.Detection
import BulkMemory.Function

/-!
# Replacements for the bulk memory instructions

A `Replacement` is a function that stands in for an instruction. `freshName` keeps its name apart
from the functions of the module, and `Replacement.forDetection` makes one for each instruction
found, the later names apart from the earlier ones too.
-/

namespace BulkMemory
set_option autoImplicit false

/-- The identifier for a name. -/
def identifier (name : String) : String := "$" ++ name

/-- The names that are tried in turn: the base itself, then the base with a number. -/
def nameCandidates (base : String) (count : Nat) : List String :=
  base :: (List.range count).map fun n => base ++ "_" ++ toString (n + 1)

/-- The first candidate whose identifier is not taken. Among one more candidates than there are
taken identifiers some candidate is free. -/
def freshName (base : String) (taken : List String) : String :=
  ((nameCandidates base taken.length).find? fun name => !taken.contains (identifier name)).getD base

/-- A function that stands in for an instruction. -/
structure Replacement where
  op : Op
  function : Function
deriving Repr, Inhabited

namespace Replacement

/-- The replacement for an instruction under the given name. -/
def named : Op → String → Replacement
  | .copy, name => ⟨.copy, .copyBytes name⟩
  | .fill, name => ⟨.fill, .fillBytes name⟩

/-- The name of the function. -/
def name (r : Replacement) : String := r.function.name

/-- The identifier by which the function is called. -/
def target (r : Replacement) : String := identifier r.name

/-- The text of the function. -/
def render (r : Replacement) (indent : String) (depth : Nat) : String :=
  r.function.render indent depth

/-- Replacements for some instructions, apart from the taken identifiers and from each other. -/
def forOps (config : Config) (taken : List String) : List Op → List Replacement
  | [] => []
  | op :: ops =>
    let name := freshName (config.baseName op) taken
    named op name :: forOps config (identifier name :: taken) ops

/-- Replacements for the instructions found in a module. -/
def forDetection (detection : Detection) (config : Config) (taken : List String) :
    List Replacement :=
  forOps config taken detection.ops

end Replacement

end BulkMemory
