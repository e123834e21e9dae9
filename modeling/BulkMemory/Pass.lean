import BulkMemory.Event
import BulkMemory.Occurrence

/-!
# The pass

`Pass.run` turns a module into one that does without bulk memory: it finds the instructions,
inserts a function for each kind at the anchor of the module, and exchanges each instruction for a
call. A module without such instructions comes out as it went in. `Pass.events` is the log of a run.
-/

namespace BulkMemory
set_option autoImplicit false

/-- The text of the functions as it is inserted, each on lines of its own. -/
def insertedText (replacements : List Replacement) (indent : String) (wrapped : Bool) : String :=
  String.join (replacements.map fun r => "\n" ++ r.render indent wrapped.toNat ++ "\n")

/-- Insert functions at the anchor of a module; `none` when the anchor does not fit the text. -/
def inject? (source : String) (layout : Layout) (replacements : List Replacement)
    (indent : String) : Option String :=
  if replacements.isEmpty then some source
  else
    Edit.applyAll? [.insertion layout.anchor (insertedText replacements indent layout.wrapped)]
      source

/-- What a run of the pass yields. -/
structure Outcome where
  /-- The text of the new module. -/
  output : String
  /-- The instructions found in the old one. -/
  detection : Detection
  /-- The names of the inserted functions, in the order of insertion. -/
  injected : List String
  copiesReplaced : Nat
  fillsReplaced : Nat
deriving DecidableEq, Repr, Inhabited

namespace Outcome

/-- The outcome for a module without bulk memory instructions. -/
def unchanged (source : String) : Outcome := ⟨source, {}, [], 0, 0⟩

/-- Whether there was nothing to do. -/
def isNoop (o : Outcome) : Bool := o.detection.isEmpty

end Outcome

namespace Pass

/-- The tokens of a module that uses bulk memory and the instructions it uses; `none` for a module
that uses neither. -/
def detect? (source : String) : Except PassError (Option (List Token × Detection)) := do
  if Detection.mayOccur source then
    let tokens ← (tokenize source).mapError .lex
    let detection := Detection.scan tokens
    return if detection.isEmpty then none else some (tokens, detection)
  else
    return none

/-- Replace the instructions of a module whose layout is known. -/
def replaceAll (config : Config) (source : String) (layout : Layout) (detection : Detection) :
    Except PassError Outcome := do
  let replacements := Replacement.forDetection detection config layout.functionNames
  match inject? source layout replacements config.indent with
  | none => throw .misplacedEdit
  | some enlarged =>
    let exchanged ← exchangeAll enlarged replacements
    return {
      output := exchanged.output
      detection
      injected := replacements.map Replacement.name
      copiesReplaced := exchanged.copies
      fillsReplaced := exchanged.fills }

/-- Run the pass over a module. -/
def run (config : Config) (source : String) : Except PassError Outcome := do
  match ← detect? source with
  | none => return .unchanged source
  | some (tokens, detection) =>
    let layout ← Layout.ofTokens tokens
    replaceAll config source layout detection

/-- The log of the stages that come after the layout. -/
def replaceEvents (config : Config) (source : String) (layout : Layout) (detection : Detection) :
    List Event :=
  let replacements := Replacement.forDetection detection config layout.functionNames
  let named := replacements.map fun r =>
    Event.debug ("Synthesized " ++ r.target ++ " for " ++ r.op.mnemonic)
  let replaced :=
    match replaceAll config source layout detection with
    | .error _ => []
    | .ok o =>
      [.debug ("Replaced " ++ toString o.copiesReplaced ++ " copy and " ++
        toString o.fillsReplaced ++ " fill instructions")]
  .debug ("Module layout: anchor=" ++ toString layout.anchor ++ ", wrapped=" ++
      toString layout.wrapped ++ ", " ++ toString layout.functionNames.length ++
      " named functions")
    :: named ++ replaced

/-- The log of a run: one or more lines for each stage that succeeds. -/
def events (config : Config) (source : String) : List Event :=
  match detect? source with
  | .error _ => []
  | .ok none => [.info "No bulk memory operations found"]
  | .ok (some (tokens, detection)) =>
    .info ("Found bulk memory ops: copy=" ++ toString detection.copy ++ ", fill=" ++
        toString detection.fill)
      :: match Layout.ofTokens tokens with
        | .error _ => []
        | .ok layout => replaceEvents config source layout detection

end Pass

end BulkMemory
