import BulkMemory.Module.Assembly
import BulkMemory.Module.Typing
import BulkMemory.PassError

/-!
# Validity of a module

Whether an assembled module follows the rules of WebAssembly as of a machine without bulk memory and
without reference types: every index points to something, every body is well typed, and nothing of
the two extensions is used.
-/

namespace BulkMemory.Module
set_option autoImplicit false

variable {ρ : Type}

/-- The types of the functions whose type is written in full only, in order, each once. -/
def implicitTypes (fields : List (Field ρ)) : List FuncType :=
  (fields.filterMap fun f =>
    match f with
    | .define _ _ _ (.func use _ _) => if use.type?.isNone then some use.inline else none
    | _ => none).eraseDups

/-- All function types of a module. Those that are only written in full come last. -/
def allTypes (fields : List (Field ρ)) : List FuncType :=
  let own := ownTypes fields
  own ++ (implicitTypes fields).filter fun t => !own.contains t

/-- The things that the instructions of a module may refer to. -/
def contextOf (fields : List (Field Nat)) : Context :=
  let base : Context := { types := allTypes fields }
  let select {α : Type} (f : Entity Nat → Option α) : List α :=
    fields.filterMap fun field =>
      match field with
      | .define _ _ _ entity => f entity
      | _ => none
  { base with
    functions := select fun e =>
      match e with
      | .func use _ _ => some (base.funcType? use)
      | _ => none
    tables := select fun e =>
      match e with
      | .table t => some t
      | _ => none
    memories := select fun e =>
      match e with
      | .memory t => some t
      | _ => none
    globals := select fun e =>
      match e with
      | .global t _ => some t
      | _ => none }

/-- The globals whose values are known before the module runs: imported ones that never change. -/
def constantGlobals (fields : List (Field Nat)) : List Bool :=
  fields.filterMap fun f =>
    match f with
    | .define _ _ imported (.global t _) => some (imported && !t.isMutable)
    | _ => none

/-- Whether an expression is constant and of a type. -/
def isConstant (ctx : Context) (known : List Bool) (t : ValType) (body : List (Instruction Nat)) :
    Bool :=
  let allowed (i : Instruction Nat) : Bool :=
    match i with
    | .simple mnemonic _ => Operator.constant.contains mnemonic
    | .globalGet x => (known[x]?).getD false
    | _ => false
  body.all allowed && isWellTyped ctx [t] body

/-- Whether sizes are in order and at most a bound. -/
def Limits.isValid (bound : Nat) (l : Limits) : Bool :=
  l.min ≤ bound && l.max?.all fun max => l.min ≤ max && max ≤ bound

/-- Whether a function type is free of references. -/
def FuncType.isValid (t : FuncType) : Bool :=
  (t.params ++ t.results).all fun v => !v.isReference

/-- Whether what a module defines or imports is valid. -/
def Entity.isValid (ctx : Context) (known : List Bool) : Entity Nat → Bool
  | .type t => t.isValid
  | .func use locals body =>
    match ctx.funcType? use with
    | some t =>
      let locals := locals.map Prod.snd
      let inner : Context := { ctx with locals := t.params ++ locals, results := t.results }
      t.isValid && locals.all (fun v => !v.isReference) && isWellTyped inner t.results body
    | none => false
  | .table t => t.element == .funcref && t.limits.isValid 10000000
  | .memory t => !t.wide && t.limits.isValid 65536 && (!t.shared || t.limits.max?.isSome)
  | .global t init => !t.type.isReference && isConstant ctx known t.type init
  | .elem place? functions =>
    functions.all (· < ctx.functions.length) &&
      place?.any fun (into, offset) =>
        into < ctx.tables.length && isConstant ctx known .i32 offset
  | .data place? =>
    place?.any fun (into, offset) =>
      into < ctx.memories.length && isConstant ctx known .i32 offset

/-- Whether an imported thing is valid; it has no body to check. -/
def Entity.isValidImport (ctx : Context) : Entity Nat → Bool
  | .func use _ _ => (ctx.funcType? use).any FuncType.isValid
  | .global t _ => !t.type.isReference
  | entity => entity.isValid ctx []

/-- Whether an index points to something that can be exported. -/
def pointsTo (ctx : Context) (n : Nat) : Space → Bool
  | .func => n < ctx.functions.length
  | .table => n < ctx.tables.length
  | .memory => n < ctx.memories.length
  | .global => n < ctx.globals.length
  | _ => false

/-- The names under which a module exports something. -/
def exportNames (fields : List (Field ρ)) : List String :=
  fields.flatMap fun f =>
    match f with
    | .define _ exports _ _ => exports
    | .export name _ _ => [name]
    | .start _ => []

/-- Whether a module is valid. -/
def isValid (fields : List (Field Nat)) : Bool :=
  let ctx := contextOf fields
  let known := constantGlobals fields
  let names := exportNames fields
  let fieldIsValid (f : Field Nat) : Bool :=
    match f with
    | .define _ _ true entity => entity.isValidImport ctx
    | .define _ _ false entity => entity.isValid ctx known
    | .export _ what n => pointsTo ctx n what
    | .start n => ctx.functions[n]?.any (· == some ⟨[], []⟩)
  let starts := fields.filter fun f =>
    match f with
    | .start _ => true
    | _ => false
  fields.all fieldIsValid && names.eraseDups.length == names.length &&
    ctx.tables.length ≤ 1 && ctx.memories.length ≤ 100 && starts.length ≤ 1

/-- A test of module text: nothing, or why it is not fit for a machine without bulk memory. -/
abbrev Validator := String → Except ValidationError Unit

/-- Assemble module text and test its validity. -/
def validate : Validator := fun source =>
  match assemble? source with
  | none => .error (.unassembled "the text is not a module")
  | some fields =>
    if isValid fields then .ok () else .error (.invalid "the module breaks a rule of validity")

end BulkMemory.Module
