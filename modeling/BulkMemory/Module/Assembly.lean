import BulkMemory.Module.Reader
import BulkMemory.Token.Lexer

/-!
# Assembling a module

`assemble?` reads module text and resolves its names. It fails for a text that is no module: one
that cannot be read, that uses a name it does not define, or that defines one twice. An index that
points to nothing is not its concern, since an index is not looked up.
-/

namespace BulkMemory.Module
set_option autoImplicit false

section Spacing

/-- Whether the characters of a lexeme may stand in module text. -/
def isAllowed (l : Lexeme) : Bool :=
  match l.kind with
  | .leftParen | .rightParen | .string => true
  | .blank => l.text.toList.all isTextBlank
  | .lineComment | .blockComment => !l.text.toList.any confusingChars.contains
  | .keyword | .id | .number | .reserved => l.text.toList.all isIdentifierChar

/-- Whether a lexeme must not touch another one of its sort. -/
def isWord (l : Lexeme) : Bool :=
  !l.isTrivia && l.kind != .leftParen && l.kind != .rightParen

/-- Whether no two words touch each other. -/
def isSpaced : List Lexeme → Bool
  | a :: b :: ls => !(isWord a && isWord b) && isSpaced (b :: ls)
  | _ => true

/-- The lexemes of a module that carry meaning. -/
def lexemes? (source : String) : Option (List Lexeme) :=
  match Lexer.run source.toList with
  | (ls, none) =>
    if ls.all isAllowed && isSpaced ls then some (ls.filter fun l => !l.isTrivia) else none
  | (_, some _) => none

end Spacing

section Names

variable {ρ : Type}

/-- The names given in an index space, in the order of the indices. -/
def namesIn (space : Space) (fields : List (Field ρ)) : List (Option String) :=
  fields.filterMap fun f =>
    match f with
    | .define id _ _ entity => if entity.space = space then some id else none
    | _ => none

/-- Whether no name is given twice. -/
def areDistinct (names : List (Option String)) : Bool :=
  let given := names.filterMap id
  given.eraseDups.length == given.length

/-- The index that a reference stands for among the given names. -/
def indexIn? (names : List (Option String)) : Target → Option Nat
  | .index n => some n
  | .name id => names.findIdx? (· == some id)

/-- The index spaces that are the same all over the module. -/
def allSpaces : List Space := [.type, .func, .table, .memory, .global, .elem, .data]

/-- The names given in the index spaces of a module. -/
abbrev Names := Space → List (Option String)

/-- The names that the fields of a module give. -/
def Names.ofFields (fields : List (Field ρ)) : Names := fun space => namesIn space fields

/-- The index that a reference stands for. -/
def Names.find? (names : Names) (r : Ref) : Option Nat := indexIn? (names r.space) r.target

end Names

section Types

/-- The function types that a module defines by fields of their own. -/
def ownTypes {ρ : Type} (fields : List (Field ρ)) : List FuncType :=
  fields.filterMap fun f =>
    match f with
    | .define _ _ _ (.type t) => some t
    | _ => none

/-- Whether a type written in full agrees with the one that is referred to. -/
def agrees (types : List FuncType) (t : TypeUse Nat) : Bool :=
  match t.type?.bind (types[·]?) with
  | some referred => (t.params.isEmpty && t.results.isEmpty) || t.inline == referred
  | none => true

/-- Resolve the references of a written type. -/
def TypeUse.assemble? (types : List FuncType) (find : Ref → Option Nat) (t : TypeUse Ref) :
    Option (TypeUse Nat) := do
  let t ← t.resolve find
  if agrees types t then some t else none

end Types

section Bodies

/-- The labels of the blocks around an instruction, the innermost first. -/
abbrev Labels := List (Option String)

/-- The labels around the instruction behind the given one. A label at the end or in the middle of a
block must be the one at its beginning. -/
def labelsAfter? (labels : Labels) : Instruction Ref → Option Labels
  | .enter _ label _ => some (label :: labels)
  | .otherwise label =>
    if label.isNone || labels.isEmpty || labels.head? == some label then some labels else none
  | .close label =>
    if label.isNone || labels.isEmpty || labels.head? == some label then some labels.tail else none
  | _ => some labels

/-- Whether the types written in an instruction agree with those referred to. -/
def typesAgree (types : List FuncType) : Instruction Nat → Bool
  | .enter _ _ t | .callIndirect _ t => agrees types t
  | _ => true

/-- Resolve the names in a list of instructions. -/
def resolveAll (types : List FuncType) (names : Names) :
    Labels → Instructions → Option (List (Instruction Nat))
  | _, [] => some []
  | labels, i :: is => do
    let inner ← labelsAfter? labels i
    let find (r : Ref) : Option Nat :=
      if r.space = .label then indexIn? labels r.target else names.find? r
    let j ← i.resolve find
    if typesAgree types j then
      return j :: (← resolveAll types names inner is)
    else none

/-- Resolve the names in an entity. -/
def Entity.assemble? (types : List FuncType) (names : Names) : Entity Ref → Option (Entity Nat)
  | .type t => some (.type t)
  | .func use locals body => do
    let use ← use.assemble? types names.find?
    let params ←
      match use.type? with
      | some n =>
        let unnamed := ((types[n]?.map FuncType.params).getD []).map fun t => (none, t)
        some (if use.params.isEmpty then unnamed else use.params)
      | none => some use.params
    let declared := (params ++ locals).map Prod.fst
    let names : Names := fun space => if space = .local then declared else names space
    if areDistinct declared then
      return .func use locals (← resolveAll types names [] body)
    else none
  | .table t => some (.table t)
  | .memory t => some (.memory t)
  | .global t init => .global t <$> resolveAll types names [] init
  | .elem place? functions => do
    let place? ← place?.mapM fun (into, offset) => do
      return (← names.find? into, ← resolveAll types names [] offset)
    return .elem place? (← functions.mapM names.find?)
  | .data place? => do
    let place? ← place?.mapM fun (into, offset) => do
      return (← names.find? into, ← resolveAll types names [] offset)
    return .data place?

/-- Resolve the names in a field. -/
def Field.assemble? (types : List FuncType) (names : Names) : Field Ref → Option (Field Nat)
  | .define id exports imported entity =>
    .define id exports imported <$> entity.assemble? types names
  | .export name what r => .export name what <$> names.find? r
  | .start r => .start <$> names.find? r

end Bodies

/-- Whether all imports stand before the definitions that share an index space with them. -/
def importsComeFirst {ρ : Type} : List (Field ρ) → Bool
  | [] => true
  | .define _ _ false entity :: fs =>
    let counts := [Space.func, .table, .memory, .global].contains entity.space
    let isImport (f : Field ρ) : Bool :=
      match f with
      | .define _ _ imported _ => imported
      | _ => false
    !(counts && fs.any isImport) && importsComeFirst fs
  | _ :: fs => importsComeFirst fs

/-- The fields of a module with all names resolved; `none` for a text that is no module. -/
def assemble? (source : String) : Option (List (Field Nat)) := do
  let lexemes ← lexemes? source
  let (fields, _) ← moduleText lexemes
  let names := Names.ofFields fields
  if importsComeFirst fields && allSpaces.all (areDistinct <| names ·) then
    fields.mapM (Field.assemble? (ownTypes fields) names)
  else none

end BulkMemory.Module
