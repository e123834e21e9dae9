import BulkMemory.Op

/-!
# Settings of the pass

A `Config` names the inserted functions and gives the indentation of their text. `Config.check` says
whether module text written with it is well formed.
-/

namespace BulkMemory
set_option autoImplicit false

/-- The names of the inserted functions, before they are made unique, and one level of
indentation. -/
structure Config where
  copyName : String := "memcpy"
  fillName : String := "memset"
  indent : String := "  "
deriving DecidableEq, Repr, Inhabited

/-- What is wrong with a configuration. -/
inductive ConfigError where
  /-- The document cannot be read as a configuration. -/
  | malformed (reason : String)
  | invalidName (name : String)
  | invalidIndent
deriving DecidableEq, Repr, Inhabited

/-- The wording of a configuration error. -/
def ConfigError.message : ConfigError → String
  | malformed reason => "invalid configuration: " ++ reason
  | invalidName name =>
    "invalid function name `" ++ name ++ "`: expected a non-empty WAT identifier without `$`"
  | invalidIndent => "indent must consist of spaces or tabs"

/-- The punctuation that may stand in an identifier. -/
def identifierMarks : List Char := "!#$%&'*+-./:<=>?@\\^_`|~".toList

/-- Whether a character may stand in an identifier. -/
def isIdentifierChar (c : Char) : Bool :=
  c.isAlphanum || identifierMarks.contains c

/-- Whether a text may follow the dollar sign of an identifier. -/
def isIdentifier (name : String) : Bool :=
  !name.isEmpty && name.toList.all isIdentifierChar

namespace Config

/-- The name configured for the replacement of an instruction. -/
def baseName (c : Config) : Op → String
  | .copy => c.copyName
  | .fill => c.fillName

/-- Whether a text is made of blanks that do not end a line. -/
def isIndent (text : String) : Bool := text.toList.all fun c => c == ' ' || c == '\t'

/-- The first fault of a configuration: names before the indentation. -/
def check (c : Config) : Except ConfigError Unit :=
  match [c.copyName, c.fillName].find? fun name => !isIdentifier name with
  | some name => .error (.invalidName name)
  | none => if isIndent c.indent then .ok () else .error .invalidIndent

end Config

end BulkMemory
