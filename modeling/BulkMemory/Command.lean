import BulkMemory.Path

/-!
# What the command line asks for

A `Command` is what the words of a command line come to: a module to convert, one of the two texts
about the program, or a refusal. `UsageError.message` holds the wording of the refusals.
-/

namespace BulkMemory
set_option autoImplicit false

/-- The name under which the program is called. -/
def programName : String := "watfill"

/-- The words of a command line that have their meaning by their place. -/
inductive Operand where
  | input
  | output
deriving DecidableEq, Repr, Inhabited

namespace Operand

/-- All operands, in the order of the command line. -/
def all : List Operand := [input, output]

/-- How an operand is written in a synopsis. -/
def synopsis : Operand → String
  | input => "<INPUT>"
  | output => "<OUTPUT>"

end Operand

/-- The words of a command line that have their meaning by their name. -/
inductive Switch where
  /-- The next word is the path of a configuration. -/
  | config
  | validate
  | verbose
  | help
  | version
deriving DecidableEq, Repr, Inhabited

namespace Switch

/-- All switches, in the order of the help text. -/
def all : List Switch := [config, validate, verbose, help, version]

/-- The name of a switch, which follows two dashes. -/
def name : Switch → String
  | config => "config"
  | validate => "validate"
  | verbose => "verbose"
  | help => "help"
  | version => "version"

/-- The letter of a switch, which follows one dash. -/
def letter? : Switch → Option Char
  | config | validate => none
  | verbose => some 'v'
  | help => some 'h'
  | version => some 'V'

/-- How a switch is written in a synopsis. -/
def synopsis : Switch → String
  | config => "--config <CONFIG>"
  | s => "--" ++ s.name

/-- The switch with the given name. -/
def named? (name : String) : Option Switch := all.find? (·.name == name)

/-- The switch with the given letter. -/
def lettered? (letter : Char) : Option Switch := all.find? (·.letter? == some letter)

end Switch

/-- Why a command line is refused. -/
inductive UsageError where
  | missing (operands : List Operand) (used : List Switch)
  /-- There are more operands than places for them. -/
  | tooMany (word : String)
  | unknownLetter (letter : Char)
  /-- No switch has the name. Switches used so far and the one that is most like the name are shown;
  `bare` says that nothing stands before the word. -/
  | unknownName (name : String) (similar : Option Switch) (used : List Switch) (bare : Bool)
  /-- A switch that stands for itself has been given a value. -/
  | valued (switch : Switch) (value : String) (used : List Switch)
  | repeated (switch : Switch)
  | emptyOperand (operand : Operand)
  | emptySwitch (switch : Switch)
deriving DecidableEq, Repr, Inhabited

namespace UsageError

/-- A synopsis that shows the given words between the name of the program and the operands. -/
def synopsis (words : List String) : String :=
  "Usage: " ++ " ".intercalate (programName :: words ++ Operand.all.map Operand.synopsis)

/-- A synopsis that does not list switches. -/
def generalSynopsis : String := synopsis ["[OPTIONS]"]

/-- A synopsis that lists the given switches. -/
def synopsisWith (switches : List Switch) : String :=
  synopsis (switches.eraseDups.map Switch.synopsis)

/-- How to give the program a word that looks like a switch. -/
def escapeTip (word : String) : String :=
  "  tip: to pass '" ++ word ++ "' as a value, use '-- " ++ word ++ "'"

/-- The paragraphs about an error: what is wrong first, then hints and a synopsis. -/
def paragraphs : UsageError → List String
  | missing operands used =>
    ["\n".intercalate ("the following required arguments were not provided:" ::
      operands.map fun o => "  " ++ o.synopsis), synopsisWith used]
  | tooMany word => ["unexpected argument '" ++ word ++ "' found", generalSynopsis]
  | unknownLetter letter =>
    let word := String.ofList ['-', letter]
    ["unexpected argument '" ++ word ++ "' found", escapeTip word, generalSynopsis]
  | unknownName name similar used bare =>
    let word := "--" ++ name
    let tip := match similar with
      | some s => "  tip: a similar argument exists: '--" ++ s.name ++ "'"
      | none => escapeTip word
    let lastPart := if bare && similar.isNone then generalSynopsis
      else synopsisWith (used ++ similar.toList)
    ["unexpected argument '" ++ word ++ "' found", tip, lastPart]
  | valued switch value used =>
    ["unexpected value '" ++ value ++ "' for '" ++ switch.synopsis ++
      "' found; no more were expected", synopsisWith (used ++ [switch])]
  | repeated switch =>
    ["the argument '" ++ switch.synopsis ++ "' cannot be used multiple times", generalSynopsis]
  | emptyOperand operand =>
    ["a value is required for '" ++ operand.synopsis ++ "' but none was supplied"]
  | emptySwitch switch =>
    ["a value is required for '" ++ switch.synopsis ++ "' but none was supplied"]

/-- The text about an error. -/
def message (e : UsageError) : String :=
  "error: " ++ "\n\n".intercalate (e.paragraphs ++ ["For more information, try '--help'."]) ++ "\n"

end UsageError

/-- A module to convert. -/
structure Request where
  input : Path
  output : Path
  /-- The path of the configuration, if one is named. -/
  config? : Option Path := none
  /-- Whether the new module must be valid on a machine without bulk memory. -/
  validate : Bool := false
  /-- Whether details are logged. -/
  verbose : Bool := false
deriving DecidableEq, Repr, Inhabited

/-- What the words of a command line come to. -/
inductive Command where
  | convert (request : Request)
  | help
  | version
  | refuse (error : UsageError)
deriving DecidableEq, Repr, Inhabited

namespace Command

/-- A reader of command lines: what the words of a line come to. -/
abbrev LineReader := List String → Command

/-- The text that explains the command line. -/
def helpText : String :=
  "\n".intercalate
    ["Replace bulk memory instructions in WebAssembly text with injected functions",
     "",
     UsageError.generalSynopsis,
     "",
     "Arguments:",
     "  <INPUT>   Input module text (.wat)",
     "  <OUTPUT>  Output module text, overwritten if present",
     "",
     "Options:",
     "      --config <CONFIG>  Path to configuration file (TOML, overrides $WATFILL_CONFIG)",
     "      --validate         Check that the output assembles and validates without bulk memory",
     "  -v, --verbose          Verbose output",
     "  -h, --help             Print help",
     "  -V, --version          Print version",
     ""]

/-- The text that names the program and its version. -/
def versionText : String := programName ++ " 0.1.0\n"

end Command

end BulkMemory
