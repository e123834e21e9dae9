import BulkMemory.Config
import BulkMemory.Files
import BulkMemory.PassError

/-!
# Why a conversion fails

A `Failure` says which step failed and why. `Failure.report` is the text about it: what the program
was about to do, and under it the causes from the nearest to the deepest.
-/

namespace BulkMemory
set_option autoImplicit false

/-- Why no configuration could be had from a file. -/
inductive LoadError where
  | unreadable (error : FileError)
  | unfit (error : ConfigError)
deriving DecidableEq, Repr, Inhabited

/-- The causes of a load error. -/
def LoadError.causes : LoadError → List String
  | unreadable e => ["cannot read configuration: " ++ e.message, e.message]
  | unfit (.malformed reason) => [(ConfigError.malformed reason).message, reason]
  | unfit e => [e.message]

/-- Why a conversion fails, in the order of its steps. -/
inductive Failure where
  | config (path : Path) (error : LoadError)
  | input (path : Path) (error : FileError)
  | pass (path : Path) (error : PassError)
  | validation (error : ValidationError)
  | outputDirectory (path : Path) (error : FileError)
  | output (path : Path) (error : FileError)
deriving DecidableEq, Repr, Inhabited

namespace Failure

/-- What the program could not do. -/
def context : Failure → String
  | config p _ => "Cannot load configuration " ++ p.quoted
  | input p _ => "Cannot read input file " ++ p.quoted
  | pass p _ => "Cannot polyfill " ++ p.quoted
  | validation _ => "Rewritten module failed validation"
  | outputDirectory p _ => "Cannot create output directory " ++ p.quoted
  | output p _ => "Cannot write output file " ++ p.quoted

/-- The causes, the nearest first. -/
def causes : Failure → List String
  | config _ e => e.causes
  | input _ e | outputDirectory _ e | output _ e => [e.message]
  | pass _ e => [e.message]
  | validation e => [e.message]

/-- A cause with a mark before its first line and as many blanks before the others. -/
def indented (mark cause : String) : String :=
  mark ++ cause.replace "\n" ("\n" ++ String.ofList (mark.toList.map fun _ => ' '))

/-- The causes one below the other, numbered if there are several. -/
def causeLines : List String → List String
  | [cause] => [indented "    " cause]
  | causes => causes.zipIdx.map fun (cause, i) => indented ("    " ++ toString i ++ ": ") cause

/-- The text about a failure. -/
def report (f : Failure) : String :=
  "\n".intercalate (["Error: " ++ f.context, "", "Caused by:"] ++ causeLines f.causes)

end Failure

end BulkMemory
