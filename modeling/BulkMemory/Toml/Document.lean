import BulkMemory.Toml.Scalar

/-!
# TOML documents

A document is read in two steps: `lines` cuts it into keys with values and headers, and
`Entries.ofLines?` enters these into one table. The second step refuses a key or a table that is
defined twice.
-/

namespace BulkMemory.Toml
set_option autoImplicit false

open Reader

/-- Values and keys must be nested less deeply than this. -/
def depthLimit : Nat := 80

/-- A name in a key. -/
def keyPart : Reader Char String := do
  skipBlanks
  let isBare (c : Char) : Bool := c.isAlphanum || c == '_' || c == '-'
  let bare := String.ofList <$> check (Reader.takeWhile isBare) fun cs => !cs.isEmpty
  let name ← bare <|> keyString
  skipBlanks
  return name

/-- A key: names with dots between them, of which the last stands apart. -/
def key : Reader Char (List String × String) :=
  convert (check (sepBy1 keyPart (char '.')) fun names => names.length < depthLimit)
    fun names => names.getLast?.map fun last => (names.dropLast, last)

/-- Blanks, line breaks and comments between the items of an array. -/
def skipLines : Reader Char Unit := do
  let _ ← many ((do let _ ← satisfy isInlineBlank) <|> lineBreak <|> (comment *> lineBreak))

/-- The items of an array, behind its opening bracket. -/
def arrayItems (item : Reader Char Value) : Reader Char (List Value) := do
  let spaced := skipLines *> item <* skipLines
  let items ← sepBy spaced (char ',')
  if !items.isEmpty then
    let _ ← optional (char ',')
  skipLines
  let _ ← char ']'
  return items

/-- A key and its value. -/
def pair (value : Reader Char Value) : Reader Char ((List String × String) × Value) := do
  let k ← key
  let _ ← char '='
  skipBlanks
  let v ← value
  skipBlanks
  return (k, v)

/-- The entries of a table in braces, behind the opening brace. -/
def braceEntries (value : Reader Char Value) : Reader Char Entries := do
  let pairs ← sepBy (pair value) (char ',')
  skipBlanks
  let _ ← char '\x7d'
  let enter (table : Section) (p : (List String × String) × Value) : Option Section :=
    Entries.define p.1.1 p.1.2 p.2 table
  match pairs.foldlM enter (.header, []) with
  | some (_, entries) => return entries
  | none => failure

/-- A value that holds others to the given depth at most. -/
def value : (depth : Nat) → Reader Char Value
  | 0 => scalar
  | depth + 1 =>
    (do
      let _ ← char '['
      Value.array <$> arrayItems (value depth))
    <|> (do
      let _ ← char '\x7b'
      Value.table .braces <$> braceEntries (value depth))
    <|> scalar

/-- A line of a document. -/
inductive Line where
  | blank
  | pair (path : List String) (key : String) (value : Value)
  | header (path : List String) (key : String)
  /-- The header of one more row of an array of tables. -/
  | row (path : List String) (key : String)
deriving Repr

/-- A line, without the line break. -/
def line : Reader Char Line := do
  skipBlanks
  let row := do
    word "[["
    let (path, name) ← key
    word "]]"
    return Line.row path name
  let header := do
    word "["
    let (path, name) ← key
    word "]"
    return Line.header path name
  let keyed := do
    let ((path, name), v) ← pair (value (depthLimit - 1))
    return Line.pair path name v
  let found ← row <|> header <|> keyed <|> pure .blank
  skipBlanks
  let _ ← optional comment
  return found

/-- The lines of a document, before which a byte order mark may stand. -/
def lines : Reader Char (List Line) := do
  let _ ← optional (char '\ufeff')
  let found ← sepBy1 line lineBreak
  atEnd
  return found

namespace Entries

/-- The table of a whole document, and the path of the header under which the next line stands. -/
structure Progress where
  root : Section := (.header, [])
  path : List String := []

/-- Enter one line of a document. -/
def enter (p : Progress) : Line → Option Progress
  | .blank => some p
  | .pair path key value => do
    let root ← update .implied (define path key value) p.path p.root
    return { p with root }
  | .header path key => do
    let root ← update .implied (openTable key) path p.root
    return ⟨root, path ++ [key]⟩
  | .row path key => do
    let root ← update .implied (openRow key) path p.root
    return ⟨root, path ++ [key]⟩

/-- The table that the lines of a document define. -/
def ofLines? (ls : List Line) : Option Entries :=
  (ls.foldlM enter {}).map (·.root.2)

end Entries

/-- The table that a document defines; `none` for a text that is no document. -/
def parse? (text : String) : Option Entries := do
  let (ls, _) ← lines text.toList
  Entries.ofLines? ls

end BulkMemory.Toml
