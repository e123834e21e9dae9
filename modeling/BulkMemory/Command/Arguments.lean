import BulkMemory.Command
import BulkMemory.Text.Similarity

/-!
# Reading a command line

`Command.ofWords` reads the words of a command line from the left. A word that needs to be looked at
as a whole, an operand or the value of a switch, is held back and accepted only when the next word
with a meaning of its own comes, or the end; so its faults are found after those of the words
between. What a word ends the reading with is thrown as the command it comes to.
-/

namespace BulkMemory.Command
set_option autoImplicit false

/-- A word that is held back. -/
inductive Held where
  | operand (word : String)
  /-- The switch for the configuration, perhaps with the word after it. -/
  | config (value? : Option String)
deriving DecidableEq, Repr, Inhabited

/-- What has been read of a command line. -/
structure Progress where
  operands : List String := []
  config? : Option String := none
  /-- The switches in the order of their use. -/
  used : List Switch := []
  held? : Option Held := none
deriving DecidableEq, Repr, Inhabited

namespace Progress

/-- The number of operands, accepted or not. -/
def operandCount (p : Progress) : Nat :=
  match p.held? with
  | some (.operand _) => p.operands.length + 1
  | _ => p.operands.length

/-- Accept a switch that may be used once. -/
def use (p : Progress) (s : Switch) : Except Command Progress :=
  if p.used.contains s then .error (.refuse (.repeated s)) else .ok { p with used := p.used ++ [s] }

/-- Accept the word that is held back. -/
def settle (p : Progress) : Except Command Progress := do
  match p.held? with
  | none => return p
  | some (.operand word) =>
    if word.isEmpty then
      throw (.refuse (.emptyOperand (if p.operands.isEmpty then .input else .output)))
    else return { p with operands := p.operands ++ [word], held? := none }
  | some (.config none) => throw (.refuse (.emptySwitch .config))
  | some (.config (some value)) =>
    let q ← p.use .config
    if value.isEmpty then throw (.refuse (.emptySwitch .config))
    else return { q with config? := some value, held? := none }

/-- Read an operand. -/
def operand (p : Progress) (word : String) : Except Command Progress := do
  if p.operandCount = Operand.all.length then throw (.refuse (.tooMany word))
  else return { ← p.settle with held? := some (.operand word) }

/-- Read a switch that stands for itself. -/
def flag (p : Progress) (s : Switch) : Except Command Progress := do
  let q ← p.settle
  match s with
  | .help => throw .help
  | .version => throw .version
  | _ => q.use s

/-- Refuse a name that no switch has. -/
def unknown (p : Progress) (name : String) : Command :=
  let q := p.settle.toOption.getD p
  let similar := (Similarity.closest? name (Switch.all.map Switch.name)).bind Switch.named?
  .refuse (.unknownName name similar q.used (q.used.isEmpty && q.operandCount == 0))

/-- Read what follows two dashes: the name of a switch, perhaps with its value after a sign of
equality. -/
def named (p : Progress) (cs : List Char) : Except Command Progress := do
  let name := String.ofList (cs.takeWhile (· != '='))
  let value? := match cs.dropWhile (· != '=') with
    | [] => none
    | _ :: value => some (String.ofList value)
  match Switch.named? name, value? with
  | none, _ => throw (p.unknown name)
  | some .config, none => return { ← p.settle with held? := some (.config none) }
  | some .config, some value => settle { ← p.settle with held? := some (.config (some value)) }
  | some s, none => p.flag s
  | some s, some value => throw (.refuse (.valued s value p.used))

/-- Read the letter of a switch. -/
def letter (p : Progress) (c : Char) : Except Command Progress :=
  match Switch.lettered? c with
  | none => .error (.refuse (.unknownLetter c))
  | some s => p.flag s

/-- Read a word that does not look like a switch. -/
def value (p : Progress) (word : String) : Except Command Progress :=
  match p.held? with
  | some (.config none) => .ok { p with held? := some (.config (some word)) }
  | _ => p.operand word

/-- Read a word other than two dashes. -/
def word (p : Progress) (word : String) : Except Command Progress :=
  match word.toList with
  | '-' :: '-' :: name => p.named name
  | '-' :: c :: cs => (c :: cs).foldlM letter p
  | _ => p.value word

/-- Read all words. Two dashes alone make operands of the words behind them. -/
def words (p : Progress) : List String → Except Command Progress
  | [] => p.settle
  | w :: ws =>
    if w = "--" then do settle (← ws.foldlM operand p)
    else do words (← p.word w) ws

/-- The command that the words come to. -/
def command (p : Progress) : Command :=
  match p.operands with
  | input :: output :: _ =>
    .convert {
      input := ⟨input⟩
      output := ⟨output⟩
      config? := p.config?.map Path.mk
      validate := p.used.contains .validate
      verbose := p.used.contains .verbose }
  | operands => .refuse (.missing (Operand.all.drop operands.length) p.used)

end Progress

/-- What the words of a command line come to. -/
def ofWords : LineReader := fun words =>
  match Progress.words {} words with
  | .error c => c
  | .ok p => p.command

end BulkMemory.Command
