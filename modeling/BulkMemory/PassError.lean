import BulkMemory.Token.Lexer

/-!
# Why the pass gives up

Each cause is a constructor, and `PassError.message` holds all the wording.
-/

namespace BulkMemory
set_option autoImplicit false

/-- Why a module is not fit for a machine without bulk memory. -/
inductive ValidationError where
  /-- The text is no module. -/
  | unassembled (reason : String)
  /-- The module breaks a rule of validity. -/
  | invalid (reason : String)
deriving DecidableEq, Repr, Inhabited

/-- The wording of a validation error. -/
def ValidationError.message : ValidationError → String
  | unassembled reason => "cannot assemble module text: " ++ reason
  | invalid reason => "module is not valid without bulk memory: " ++ reason

/-- Why the pass gives up. -/
inductive PassError where
  | lex (error : LexError)
  /-- No closing parenthesis stands anywhere. -/
  | noClosingDelimiter
  /-- A parenthesis has no partner. -/
  | unbalanced (position : Position)
  /-- An instruction names a memory other than the first. -/
  | unsupportedOperand (mnemonic operand : String) (position : Position)
  | validation (error : ValidationError)
  /-- An edit of the text does not fit it. -/
  | misplacedEdit
deriving DecidableEq, Repr, Inhabited

namespace PassError

/-- The wording of an error. -/
def message : PassError → String
  | lex e => e.fault.describe ++ " at " ++ e.position.describe
  | noClosingDelimiter => "module text has no closing delimiter to anchor injected functions"
  | unbalanced p => "unbalanced delimiter at " ++ p.describe
  | unsupportedOperand mnemonic operand p =>
    "unsupported memory operand `" ++ operand ++ "` for " ++ mnemonic ++ " at " ++ p.describe ++
      ": only the default memory (0) is supported"
  | validation e => "output validation failed: " ++ e.message
  | misplacedEdit => "an edit does not fit the module text"

/-- Whether the parentheses of the text do not make a module. -/
def isStructural : PassError → Bool
  | noClosingDelimiter | unbalanced _ => true
  | _ => false

end PassError

end BulkMemory
