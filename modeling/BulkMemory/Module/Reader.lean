import BulkMemory.Module.Instruction
import BulkMemory.Module.Literal
import BulkMemory.Module.Operator
import BulkMemory.Text.Reader
import BulkMemory.Token

/-!
# Reading a module

Readers from lexemes to the fields of a module. Instructions may be folded, so that an instruction
stands in parentheses with those that compute its operands; `folded` puts them into their order of
execution. Names stay as they are written.
-/

namespace BulkMemory.Module
set_option autoImplicit false

open BulkMemory.Reader

/-- Takes something off the front of some lexemes. -/
abbrev Read (α : Type) := BulkMemory.Reader Lexeme α

/-- A list of instructions as they stand in the text. -/
abbrev Instructions := List (Instruction Ref)

variable {α : Type}

section Lexemes

/-- Take a lexeme of a kind. -/
def ofKind (kind : Kind) : Read String := Lexeme.text <$> satisfy (·.kind == kind)

/-- Take a keyword. -/
def anyKeyword : Read String := ofKind .keyword

/-- Take the given keyword. -/
def keyword (w : String) : Read Unit := do
  let _ ← satisfy (·.isKeyword w)

/-- Read what stands between parentheses. -/
def parens (p : Read α) : Read α := do
  let _ ← ofKind .leftParen
  let a ← p
  let _ ← ofKind .rightParen
  return a

/-- Read what stands between parentheses behind a keyword. -/
def form (w : String) (p : Read α) : Read α := parens (keyword w *> p)

/-- Take the characters of a lexeme that may be a number. -/
def number (f : List Char → Option α) : Read α :=
  convert ((fun l : Lexeme => l.text.toList) <$>
    satisfy fun l => l.kind == .number || l.kind == .keyword || l.kind == .reserved) f

/-- Take a whole number without a sign that has at most 32 bits. -/
def natural32 : Read Nat := check (number natural?) (hasBits 32)

/-- Take a name. -/
def identifier : Read String := ofKind .id

/-- Take a string that is a name. -/
def nameString : Read String := convert (ofKind .string) name?

/-- Take a reference to a thing. -/
def ref (space : Space) : Read Ref :=
  (fun target => ⟨space, target⟩) <$> (Target.index <$> natural32 <|> Target.name <$> identifier)

/-- Take a reference to a thing, or mean the first one. -/
def refOrFirst (space : Space) : Read Ref :=
  ref space <|> pure ⟨space, .index 0⟩

end Lexemes

section Types

/-- Take the type of a value. -/
def valType : Read ValType := convert anyKeyword fun w => ValType.keywords.lookup w

/-- Read parameters or locals: one with a name, or any number without. -/
def declared (w : String) : Read (List (Option String × ValType)) :=
  List.flatten <$> many (form w
    ((do
      let id ← identifier
      let t ← valType
      return [(some id, t)])
    <|> many ((fun t => (none, t)) <$> valType)))

/-- Read results. -/
def resultTypes : Read (List ValType) :=
  List.flatten <$> many (form "result" (many valType))

/-- Read the type of a function or block. -/
def typeUse : Read (TypeUse Ref) := do
  let type? ← optional (form "type" (ref .type))
  let params ← declared "param"
  let results ← resultTypes
  return { type?, params, results }

/-- Read a type whose parameters must not have names. -/
def unnamedTypeUse : Read (TypeUse Ref) :=
  check typeUse fun t => t.params.all fun p => p.1.isNone

/-- Read the sizes of a table or memory. -/
def limits : Read Limits := do
  let min ← natural32
  let max? ← optional natural32
  return { min, max? }

/-- Read the type of a memory. -/
def memoryType : Read MemoryType := do
  let wide ← (fun _ => true) <$> keyword "i64" <|> (fun _ => false) <$> keyword "i32" <|> pure false
  let limits ← limits
  let shared ← (fun _ => true) <$> keyword "shared" <|> pure false
  return { limits, shared, wide }

/-- Read the type of a table. -/
def tableType : Read TableType := do
  let limits ← limits
  let element ← check valType ValType.isReference
  return { limits, element }

/-- Read the type of a global. -/
def globalType : Read GlobalType :=
  (fun type => ⟨type, true⟩) <$> form "mut" valType <|> (fun type => ⟨type, false⟩) <$> valType

end Types

section Instructions

/-- The value of a keyword such as `offset=4`. -/
def argument (w : String) : Read Nat :=
  convert anyKeyword fun text =>
    let mark := (w ++ "=").toList
    if mark.isPrefixOf text.toList then natural? (text.toList.drop mark.length) else none

/-- Take an alignment, as a power of two. -/
def alignment : Read Nat :=
  Nat.log2 <$> check (argument "align") fun n => 0 < n && 1 <<< n.log2 == n

/-- Read what follows the keyword of a load or store. -/
def accessTail (type : FuncType) (natural : Nat) : Read (Instruction Ref) := do
  let memory ← refOrFirst .memory
  let offset ← argument "offset" <|> pure 0
  let align ← alignment <|> pure natural
  return .access memory type natural align offset

/-- Read a constant of a type. -/
def constant (mnemonic : String) (t : ValType) (isValid : List Char → Bool) :
    Read (Instruction Ref) := do
  let _ ← number fun cs => if isValid cs then some cs else none
  return .simple mnemonic ⟨[], [t]⟩

/-- Whether a text is a whole number of so many bits. -/
def isWhole (bits : Nat) (cs : List Char) : Bool := (whole? cs).any (fitsBits bits)

/-- Read the two optional references of an instruction that copies. -/
def twoOrFirst (space : Space) : Read (List Ref) :=
  (do
    let a ← ref space
    let b ← ref space
    return [a, b])
  <|> pure [⟨space, .index 0⟩, ⟨space, .index 0⟩]

/-- Read what follows a keyword that has a rule of its own. -/
def specialTail (w : String) : Read (Instruction Ref) :=
  match w with
  | "i32.const" => constant w .i32 (isWhole 32)
  | "i64.const" => constant w .i64 (isWhole 64)
  | "f32.const" => constant w .f32 (isFloatLiteral singleBound 23)
  | "f64.const" => constant w .f64 (isFloatLiteral doubleBound 52)
  | "memory.size" => .memorySize <$> refOrFirst .memory
  | "memory.grow" => .memoryGrow <$> refOrFirst .memory
  | "local.get" => .localGet <$> ref .local
  | "local.set" => .localSet <$> ref .local
  | "local.tee" => .localTee <$> ref .local
  | "global.get" => .globalGet <$> ref .global
  | "global.set" => .globalSet <$> ref .global
  | "drop" => pure .drop
  | "select" => do
    let types ← resultTypes
    return if types.isEmpty then .select else .extension w []
  | "unreachable" => pure .unreachable
  | "br" => .br <$> ref .label
  | "br_if" => .brIf <$> ref .label
  | "br_table" =>
    convert (many (ref .label)) fun ls => ls.getLast?.map fun l => .brTable ls.dropLast l
  | "return" => pure .leave
  | "call" => .call <$> ref .func
  | "return_call" => .tailCall <$> ref .func
  | "call_indirect" => do
    let table ← refOrFirst .table
    .callIndirect table <$> unnamedTypeUse
  | "memory.copy" => .extension w <$> twoOrFirst .memory
  | "memory.fill" => (.extension w [·]) <$> refOrFirst .memory
  | "memory.init" =>
    (do
      let memory ← ref .memory
      let segment ← ref .data
      return .extension w [memory, segment])
    <|> (.extension w [·]) <$> ref .data
  | "data.drop" => (.extension w [·]) <$> ref .data
  | "elem.drop" => (.extension w [·]) <$> ref .elem
  | "table.get" | "table.set" | "table.size" | "table.grow" | "table.fill" =>
    (.extension w [·]) <$> refOrFirst .table
  | "table.copy" => .extension w <$> twoOrFirst .table
  | "table.init" =>
    (do
      let table ← ref .table
      let segment ← ref .elem
      return .extension w [table, segment])
    <|> (.extension w [·]) <$> ref .elem
  | "ref.func" => (.extension w [·]) <$> ref .func
  | "ref.is_null" => pure (.extension w [])
  | "ref.null" => (fun _ => .extension w []) <$> (keyword "func" <|> keyword "extern")
  | _ => failure

/-- Read an instruction that opens or closes no block. -/
def plain : Read (Instruction Ref) := do
  let w ← anyKeyword
  match Operator.simple.lookup w, Operator.accesses.lookup w with
  | some type, _ => return .simple w type
  | none, some (type, natural) => accessTail type natural
  | none, none => specialTail w

/-- Read what follows the keyword that opens a block. -/
def blockHead (kind : BlockKind) : Read (Instruction Ref) := do
  let label ← optional identifier
  .enter kind label <$> unnamedTypeUse

/-- Read an instruction that opens or closes a block. -/
def structured : Read (Instruction Ref) :=
  (keyword "block" *> blockHead .block)
    <|> (keyword "loop" *> blockHead .loop)
    <|> (keyword "if" *> blockHead .ifThen)
    <|> (keyword "else" *> (.otherwise <$> optional identifier))
    <|> (keyword "end" *> (.close <$> optional identifier))

/-- Read instructions, given a reader for folded ones. -/
def sequenceOf (folded : Read Instructions) : Read Instructions :=
  List.flatten <$> many ((fun i => [i]) <$> (plain <|> structured) <|> folded)

/-- Read a folded instruction of the given depth at most. -/
def folded : (depth : Nat) → Read Instructions
  | 0 => failure
  | depth + 1 => do
    let inner := sequenceOf (folded depth)
    let blockForm (w : String) (kind : BlockKind) : Read Instructions := do
      keyword w
      let head ← blockHead kind
      let body ← inner
      return head :: body ++ [.close none]
    let ifForm : Read Instructions := do
      keyword "if"
      let head ← blockHead .ifThen
      let cond ← List.flatten <$> many (folded depth)
      let yes ← form "then" inner
      let no ← optional (form "else" inner)
      let elsePart := no.elim [] (.otherwise none :: ·)
      return cond ++ head :: yes ++ elsePart ++ [.close none]
    let plainForm : Read Instructions := do
      let i ← plain
      let operands ← inner
      return operands ++ [i]
    parens (blockForm "block" .block <|> blockForm "loop" .loop <|> ifForm <|> plainForm)

/-- Read instructions. The depth of folding is below the number of lexemes. -/
def instructions : Read Instructions := fun ls => sequenceOf (folded ls.length) ls

end Instructions

section Fields

/-- Read the names under which a field is exported in place. -/
def inlineExports : Read (List String) := many (form "export" nameString)

/-- Read the two names of an import. -/
def importNames : Read Unit := do
  let _ ← nameString
  let _ ← nameString

/-- Read a field that defines something or imports it in place. -/
def defining (w : String) (imported defined : Read (Entity Ref)) : Read (Field Ref) :=
  form w do
    let id ← optional identifier
    let exports ← inlineExports
    let import? ← optional (form "import" importNames)
    match import? with
    | some _ => Field.define id exports true <$> imported
    | none => Field.define id exports false <$> defined

/-- Read a function type in full. -/
def funcType : Read FuncType := do
  let params ← declared "param"
  let results ← resultTypes
  return ⟨params.map Prod.snd, results⟩

/-- Read a function that is imported. -/
def importedFunc : Read (Entity Ref) := (Entity.func · [] []) <$> typeUse

/-- Read a function that is defined. -/
def definedFunc : Read (Entity Ref) := do
  let type ← typeUse
  let locals ← declared "local"
  let body ← instructions
  return .func type locals body

/-- Read a constant expression, or one instruction in its place. -/
def offset : Read Instructions :=
  let single : Read Instructions := fun ls => folded ls.length ls
  form "offset" instructions <|> single

/-- Read the bytes of a segment and count them. -/
def byteStrings : Read Nat := do
  let strings ← many (convert (ofKind .string) stringBytes?)
  return strings.flatten.length

/-- A memory that is just large enough for its bytes. -/
def memoryOfBytes : Read (Entity Ref) := do
  let count ← form "data" byteStrings
  let pages := (count + 65535) / 65536
  return .memory { limits := ⟨pages, some pages⟩ }

/-- Read the type of an import and the name it gets. -/
def importDescription : Read (Field Ref) :=
  let described (w : String) (entity : Read (Entity Ref)) : Read (Field Ref) :=
    form w do
      let id ← optional identifier
      Field.define id [] true <$> entity
  described "func" importedFunc
    <|> described "table" (.table <$> tableType)
    <|> described "memory" (.memory <$> memoryType)
    <|> described "global" ((Entity.global · []) <$> globalType)

/-- Read an export and what it points to. -/
def exportField : Read (Field Ref) :=
  form "export" do
    let name ← nameString
    let pointing (w : String) (space : Space) : Read (Field Ref) :=
      form w (Field.export name space <$> ref space)
    pointing "func" .func <|> pointing "table" .table <|> pointing "memory" .memory
      <|> pointing "global" .global

/-- Read a segment of functions. -/
def elemField : Read (Field Ref) :=
  form "elem" do
    let id ← optional identifier
    let table? ← optional (form "table" (ref .table))
    let place? ← optional offset
    let _ ← optional (keyword "declare")
    let _ ← optional (keyword "func")
    let functions ← many (ref .func)
    let place? := place?.map fun o => (table?.getD ⟨.table, .index 0⟩, o)
    return .define id [] false (.elem place? functions)

/-- Read a segment of bytes. -/
def dataField : Read (Field Ref) :=
  form "data" do
    let id ← optional identifier
    let memory? ← optional (form "memory" (ref .memory))
    let place? ← optional offset
    let _ ← byteStrings
    let place? := place?.map fun o => (memory?.getD ⟨.memory, .index 0⟩, o)
    return .define id [] false (.data place?)

/-- Read a field. -/
def field : Read (Field Ref) :=
  form "type" (do
    let id ← optional identifier
    Field.define id [] false <$> (Entity.type <$> form "func" funcType))
  <|> form "import" (importNames *> importDescription)
  <|> defining "func" importedFunc definedFunc
  <|> defining "table" (.table <$> tableType) (.table <$> tableType)
  <|> defining "memory" (.memory <$> memoryType) (.memory <$> memoryType <|> memoryOfBytes)
  <|> defining "global" ((Entity.global · []) <$> globalType)
        (do
          let type ← globalType
          Entity.global type <$> instructions)
  <|> exportField
  <|> form "start" (Field.start <$> ref .func)
  <|> elemField
  <|> dataField

/-- Read a whole module: one form around all fields, or one or more bare fields. -/
def moduleText : Read (List (Field Ref)) := do
  let wrapped := form "module" (optional identifier *> many field)
  let bare := check (many field) fun fs => !fs.isEmpty
  let fields ← wrapped <|> bare
  atEnd
  return fields

end Fields

end BulkMemory.Module
