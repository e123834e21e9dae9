import BulkMemory.Command
import BulkMemory.Config.Document
import BulkMemory.Failure
import BulkMemory.Module.Validity
import BulkMemory.Pass

/-!
# The program

The program asks four things of the machine that it runs on, its `Host`: to read a text, to make
directories, to write a text and to log a line. `Tool.convert` is one conversion, from the
configuration to the new file, and `Tool.run` the program as a whole, which is given the readers of
command lines and documents and the validator of modules. Nothing is written before the new module is
complete. `Session` is the host of a finite tree of files, on which the effects of the program can be
computed.
-/

namespace BulkMemory
set_option autoImplicit false

/-- What the program asks of the machine that it runs on. -/
structure Host (m : Type → Type) where
  read : Path → m (Except FileError String)
  createDirectories : Path → m (Except FileError Unit)
  write : Path → String → m (Except FileError Unit)
  log : Event → m Unit

/-- What the program leaves behind besides files and log lines. -/
structure Exit where
  code : Nat := 0
  /-- The text for the one who called the program. -/
  output : String := ""
  /-- The text about a failure. -/
  report : String := ""
deriving DecidableEq, Repr, Inhabited

namespace Tool

/-- The variable of the environment that names a configuration when the command line does not. -/
def configVariable : String := "WATFILL_CONFIG"

variable {m : Type → Type} [Monad m]

/-- Go on with what the host answers, or fail. -/
def attempt {α : Type} (action : m (Except FileError α)) (failure : FileError → Failure) :
    ExceptT Failure m α := do
  match ← ExceptT.lift action with
  | .ok a => return a
  | .error e => throw (failure e)

/-- Log a line if the request asks for lines like it. -/
def log (host : Host m) (request : Request) (e : Event) : ExceptT Failure m Unit :=
  if e.isShown request.verbose then ExceptT.lift (host.log e) else pure ()

/-- The configuration at a path, or the default one without a path. -/
def loadConfig (host : Host m) (read : Config.DocumentReader) :
    Option Path → ExceptT Failure m Config
  | none => pure {}
  | some path => do
    let text ← attempt (host.read path) (.config path ∘ .unreadable)
    match Config.ofText read text with
    | .ok config => return config
    | .error e => throw (.config path (.unfit e))

/-- Check the new module if the request asks for that. One that needs no change is not checked. -/
def checkOutput (host : Host m) (validate : Module.Validator) (request : Request)
    (outcome : Outcome) : ExceptT Failure m Unit :=
  if request.validate && !outcome.isNoop then
    match validate outcome.output with
    | .error e => throw (.validation e)
    | .ok () => log host request (.debug "Output validates without bulk memory")
  else pure ()

/-- Make the directory for a file. -/
def createParent (host : Host m) (path : Path) : ExceptT Failure m Unit :=
  match path.parent? with
  | none => pure ()
  | some directory =>
    attempt (host.createDirectories directory) (.outputDirectory directory)

/-- Write the new module, and first make the directory for it. -/
def writeOutput (host : Host m) (request : Request) (text : String) :
    ExceptT Failure m Unit := do
  createParent host request.output
  attempt (host.write request.output text) (.output request.output)
  log host request (.debug ("Wrote " ++ toString text.utf8ByteSize ++ " bytes to " ++
    request.output.quoted))

/-- The line of the log about a conversion. -/
def summary (o : Outcome) : Event :=
  if o.isNoop then .info "Output is an unchanged copy of the input"
  else .info ("Injected [" ++ ", ".intercalate o.injected ++ "], replaced " ++
    toString o.copiesReplaced ++ " memory.copy and " ++ toString o.fillsReplaced ++ " memory.fill")

/-- Convert a module. The configuration is named by the request, or else by the environment. -/
def convert (host : Host m) (read : Config.DocumentReader) (validate : Module.Validator)
    (environment : Option String) (request : Request) : ExceptT Failure m Outcome := do
  let config ← loadConfig host read (request.config? <|> environment.map Path.mk)
  log host request (.info ("Polyfilling " ++ request.input.quoted ++ " -> " ++
    request.output.quoted))
  let source ← attempt (host.read request.input) (.input request.input)
  (Pass.events config source).forM (log host request)
  match Pass.run config source with
  | .error e => throw (.pass request.input e)
  | .ok outcome =>
    checkOutput host validate request outcome
    writeOutput host request outcome.output
    log host request (summary outcome)
    return outcome

/-- Run the program with the words of a command line. -/
def run (host : Host m) (command : Command.LineReader) (read : Config.DocumentReader)
    (validate : Module.Validator) (environment : Option String) (words : List String) : m Exit := do
  match command words with
  | .help => return { output := Command.helpText }
  | .version => return { output := Command.versionText }
  | .refuse e => return { code := 1, output := e.message }
  | .convert request =>
    match ← (convert host read validate environment request).run with
    | .ok _ => return {}
    | .error failure => return { code := 1, report := failure.report }

end Tool

/-- A tree of files and the log lines so far. -/
structure Session where
  files : Files
  log : List Event := []
deriving Inhabited

namespace Session

/-- Do something with the files. -/
def onFiles {α : Type} (f : Files → α × Files) : StateM Session α := fun s =>
  let (answer, files) := f s.files
  (answer, { s with files })

/-- The host of a tree of files. -/
def host : Host (StateM Session) where
  read p := onFiles fun files => (files.read p, files)
  createDirectories p := onFiles fun files => files.createDirectories p
  write p text := onFiles fun files => files.changed (files.write p text)
  log e := fun s => ((), { s with log := s.log ++ [e] })

end Session

end BulkMemory
