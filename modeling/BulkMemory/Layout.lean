import BulkMemory.PassError

/-!
# Where a module takes new fields

A `Layout` is read off the parentheses of a module alone. New fields go before the parenthesis that
closes the first `(module …)` form of the top level or, where there is none, behind the last form.
`Layout.ofTokens` matches the parentheses with a stack of those that are open, the innermost first.
-/

namespace BulkMemory
set_option autoImplicit false

/-- Where a module takes new fields, and which functions it names. -/
structure Layout where
  /-- The offset at which new fields are inserted. -/
  anchor : Nat
  /-- Whether the fields stand inside a `(module …)` form. -/
  wrapped : Bool
  /-- The identifiers of the functions, with the dollar sign, each once. -/
  functionNames : List String
deriving DecidableEq, Repr, Inhabited

namespace Layout

/-- A parenthesis that is still open: its place, and whether it begins a `(module …)` form. -/
structure Opening where
  position : Position
  isModule : Bool
deriving DecidableEq, Repr

/-- The ends of the forms closed so far at the top level. -/
structure Ends where
  /-- The offset of the parenthesis that closes the first module form. -/
  module? : Option Nat := none
  /-- The offset behind the last form. -/
  last? : Option Nat := none
deriving DecidableEq, Repr

/-- Match the parentheses among the tokens that carry meaning. -/
def closeAll (opened : List Opening) (ends : Ends) : List Token → Except PassError Ends
  | [] =>
    match opened.getLast? with
    | some outermost => .error (.unbalanced outermost.position)
    | none => .ok ends
  | t :: ts =>
    match t.kind with
    | .leftParen =>
      closeAll (⟨t.position, ts.head?.any (·.isKeyword "module")⟩ :: opened) ends ts
    | .rightParen =>
      match opened with
      | [] => .error (.unbalanced t.position)
      | [o] =>
        let module? := ends.module? <|> if o.isModule then some t.start else none
        closeAll [] ⟨module?, some t.stop⟩ ts
      | _ :: o :: os => closeAll (o :: os) ends ts
    | _ => closeAll opened ends ts

/-- The identifiers that directly follow `( func`, at any depth. -/
def namedFunctions : List Token → List String
  | t :: func :: name :: ts =>
    if t.kind == .leftParen && func.isKeyword "func" && name.kind == .id then
      name.text :: namedFunctions (func :: name :: ts)
    else namedFunctions (func :: name :: ts)
  | _ => []

/-- The layout of a module, or the parenthesis that spoils it. -/
def ofTokens (tokens : List Token) : Except PassError Layout := do
  let ts := Token.significant tokens
  if !ts.any (·.kind == .rightParen) then
    throw .noClosingDelimiter
  let ends ← closeAll [] {} ts
  let names := (namedFunctions ts).eraseDups
  match ends.module?, ends.last? with
  | some offset, _ => return ⟨offset, true, names⟩
  | none, some offset => return ⟨offset, false, names⟩
  | none, none => throw .noClosingDelimiter

/-- Whether a module names a function by an identifier, given with its dollar sign. -/
def defines (l : Layout) (id : String) : Bool := l.functionNames.contains id

end Layout

end BulkMemory
