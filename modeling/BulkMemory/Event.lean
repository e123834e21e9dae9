/-!
# Log lines

An `Event` is one line of a log. Details are shown only when they are asked for.
-/

namespace BulkMemory
set_option autoImplicit false

/-- How much an event matters. -/
inductive Level where
  | info
  /-- Shown only when details are asked for. -/
  | debug
deriving DecidableEq, Repr, Inhabited

/-- The name of a level in a log. -/
def Level.name : Level → String
  | info => "INFO"
  | debug => "DEBUG"

/-- A line of a log. -/
structure Event where
  level : Level
  message : String
deriving DecidableEq, Repr, Inhabited

namespace Event

/-- An event that is always shown. -/
def info (message : String) : Event := ⟨.info, message⟩

/-- An event that is shown only when details are asked for. -/
def debug (message : String) : Event := ⟨.debug, message⟩

/-- Whether an event is shown. -/
def isShown (verbose : Bool) (e : Event) : Bool :=
  verbose || e.level == .info

end Event

end BulkMemory
