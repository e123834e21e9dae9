import BulkMemory.Command.Arguments
import BulkMemory.Proofs.Files.Changes
import BulkMemory.Proofs.Pass.Run
import BulkMemory.Proofs.Tool.Effects

/-!
# A conversion changes all or nothing

Whatever can go wrong before the new module is complete (`Obstructed`) is found out before the first
request that changes files, so it leaves them as they were. A conversion that succeeds was
`Prepared`, and its only effect is the new file, behind directories that had to be made for it.
-/

namespace BulkMemory.Tool
set_option autoImplicit false

/-- The path of the configuration: the one of the command line, or else that of the environment. -/
def configPath? (request : Request) (environment : Option String) : Option Path :=
  request.config? <|> environment.map Path.mk

section Specification

variable (files : Files) (read : Config.DocumentReader) (validate : Module.Validator)
  (environment : Option String) (request : Request)

/-- The configuration that is chosen by a path: the default one without a path. -/
inductive Configured : Option Path → Config → Prop
  | default : Configured none {}
  | file {path : Path} {text : String} {config : Config} :
    files.read path = .ok text → Config.ofText read text = .ok config → Configured (some path) config

/-- Why a conversion comes to no new module: the configuration cannot be loaded or is unfit, the
input cannot be read as text, the pass fails, or the check of its output does where it is asked for
and something was replaced. -/
inductive Obstructed : Failure → Prop
  | unreadable {path : Path} {e : FileError} :
    configPath? request environment = some path → files.read path = .error e →
      Obstructed (.config path (.unreadable e))
  | unfit {path : Path} {text : String} {e : ConfigError} :
    configPath? request environment = some path → files.read path = .ok text →
      Config.ofText read text = .error e → Obstructed (.config path (.unfit e))
  | input {config : Config} {e : FileError} :
    Configured files read (configPath? request environment) config →
      files.read request.input = .error e → Obstructed (.input request.input e)
  | pass {config : Config} {source : String} {e : PassError} :
    Configured files read (configPath? request environment) config →
      files.read request.input = .ok source → Pass.run config source = .error e →
      Obstructed (.pass request.input e)
  | validation {config : Config} {source : String} {outcome : Outcome} {e : ValidationError} :
    Configured files read (configPath? request environment) config →
      files.read request.input = .ok source → Pass.run config source = .ok outcome →
      request.validate = true → outcome.isNoop = false → validate outcome.output = .error e →
      Obstructed (.validation e)

/-- What a conversion that nothing obstructs makes of its input. -/
structure Prepared (config : Config) (source : String) (outcome : Outcome) : Prop where
  configured : Configured files read (configPath? request environment) config
  readable : files.read request.input = .ok source
  passes : Pass.run config source = .ok outcome
  valid : request.validate = true → outcome.isNoop = false → validate outcome.output = .ok ()

end Specification

variable {files before after : Files} {read : Config.DocumentReader} {validate : Module.Validator}
  {environment : Option String} {request : Request} {config : Config} {failure : Failure}
  {source : String} {outcome : Outcome} {path? : Option Path} {path : Path} {text : String}

/-- Something obstructs a conversion, or else it is prepared. -/
theorem exists_obstructed_or_prepared (files : Files) (read : Config.DocumentReader)
    (validate : Module.Validator) (environment : Option String) (request : Request) :
    (∃ failure, Obstructed files read validate environment request failure) ∨
      ∃ config source outcome,
        Prepared files read validate environment request config source outcome := by
  have hconfig : (∃ failure, Obstructed files read validate environment request failure) ∨
      ∃ config, Configured files read (configPath? request environment) config := by
    cases hpath : configPath? request environment with
    | none => exact .inr ⟨{}, .default⟩
    | some path =>
      cases htext : files.read path with
      | error e => exact .inl ⟨_, .unreadable hpath htext⟩
      | ok text =>
        cases hload : Config.ofText read text with
        | error e => exact .inl ⟨_, .unfit hpath htext hload⟩
        | ok config => exact .inr ⟨config, .file htext hload⟩
  refine hconfig.elim .inl fun ⟨config, hconfigured⟩ => ?_
  cases hsource : files.read request.input with
  | error e => exact .inl ⟨_, .input hconfigured hsource⟩
  | ok source =>
    cases hrun : Pass.run config source with
    | error e => exact .inl ⟨_, .pass hconfigured hsource hrun⟩
    | ok outcome =>
      by_cases hasked : request.validate = true ∧ outcome.isNoop = false
      · cases hvalid : validate outcome.output with
        | error e =>
          exact .inl ⟨_, .validation hconfigured hsource hrun hasked.1 hasked.2 hvalid⟩
        | ok _ => exact .inr ⟨config, source, outcome, hconfigured, hsource, hrun, fun _ _ => hvalid⟩
      · exact .inr ⟨config, source, outcome, hconfigured, hsource, hrun, fun hvalidate hnoop =>
          absurd ⟨hvalidate, hnoop⟩ hasked⟩

/-! ### The steps -/

namespace Yields

theorem loadConfig (h : Configured files read path? config) :
    Yields (Tool.loadConfig Session.host read path?) files (.ok config) files := by
  cases h with
  | default => exact pure files ({} : Config)
  | file htext hload =>
    refine (Yields.read htext _).bind ?_
    rw [hload]
    exact pure files config

theorem loadConfig_unreadable {e : FileError} (h : files.read path = .error e) :
    Yields (Tool.loadConfig Session.host read (some path)) files
      (.error (.config path (.unreadable e))) files :=
  bind_error (Yields.read h _)

theorem loadConfig_unfit {e : ConfigError} (htext : files.read path = .ok text)
    (hload : Config.ofText read text = .error e) :
    Yields (Tool.loadConfig Session.host read (some path)) files
      (.error (.config path (.unfit e))) files := by
  refine (Yields.read htext _).bind ?_
  rw [hload]
  exact throw files _

/-- The steps of a conversion behind a pass that succeeds. -/
theorem convert_of_run {answer : Except Failure Outcome}
    (hconfig : Configured files read (configPath? request environment) config)
    (hsource : files.read request.input = .ok source) (hrun : Pass.run config source = .ok outcome)
    (hrest : Yields (do
        Tool.checkOutput Session.host validate request outcome
        Tool.writeOutput Session.host request outcome.output
        Tool.log Session.host request (Tool.summary outcome)
        return outcome) files answer after) :
    Yields (Tool.convert Session.host read validate environment request) files answer after := by
  refine (loadConfig hconfig).bind ((log request _ files).bind ((Yields.read hsource _).bind
    ((forM_log request _ files).bind ?_)))
  rw [hrun]
  exact hrest

/-- What obstructs a conversion leaves the files as they were. -/
theorem convert_of_obstructed
    (h : Obstructed files read validate environment request failure) :
    Yields (Tool.convert Session.host read validate environment request) files (.error failure)
      files := by
  cases h with
  | unreadable hpath htext =>
    refine bind_error ?_
    rw [← configPath?, hpath]
    exact loadConfig_unreadable htext
  | unfit hpath htext hload =>
    refine bind_error ?_
    rw [← configPath?, hpath]
    exact loadConfig_unfit htext hload
  | input hconfig hsource =>
    exact (loadConfig hconfig).bind ((log request _ files).bind (bind_error (Yields.read hsource _)))
  | pass hconfig hsource hrun =>
    refine (loadConfig hconfig).bind ((log request _ files).bind ((Yields.read hsource _).bind
      ((forM_log request _ files).bind ?_)))
    rw [hrun]
    exact throw files _
  | validation hconfig hsource hrun hvalidate hnoop hvalid =>
    refine convert_of_run hconfig hsource hrun (bind_error ?_)
    rw [Tool.checkOutput, hvalidate, hnoop, hvalid]
    exact throw files _

theorem checkOutput (h : request.validate = true → outcome.isNoop = false →
      validate outcome.output = .ok ()) :
    Yields (Tool.checkOutput Session.host validate request outcome) files (.ok ()) files := by
  rw [Tool.checkOutput]
  split
  · rename_i hasked
    obtain ⟨hvalidate, hnoop⟩ : request.validate = true ∧ outcome.isNoop = false := by
      simpa using hasked
    rw [h hvalidate hnoop]
    exact log request _ files
  · exact pure files ()

/-- Directories are made for the output, and none but those on the way to it. -/
theorem createParent (files : Files) (p : Path) :
    ∃ answer after, Yields (Tool.createParent Session.host p) files answer after ∧
      Files.Furnishes p files after := by
  rw [Tool.createParent]
  cases hparent : p.parent? with
  | none => exact ⟨_, files, pure files (), .refl p files⟩
  | some directory =>
    exact ⟨_, _, attempt (fun files => files.createDirectories directory) _ files,
      Files.furnishes_createDirectories hparent⟩

/-- Writing the new module ends in some way, and if it succeeds, the module has been written. -/
theorem writeOutput (files : Files) (request : Request) (text : String) :
    ∃ answer after, Yields (Tool.writeOutput Session.host request text) files answer after ∧
      (answer = .ok () → Files.Written request.output text files after) := by
  obtain ⟨answer, middle, hparent, hfurnishes⟩ := createParent files request.output
  cases answer with
  | error e => exact ⟨_, middle, bind_error hparent, fun h => by cases h⟩
  | ok _ =>
    have hwrite := attempt (fun files => files.changed (files.write request.output text))
      (.output request.output) middle
    cases hwritten : middle.write request.output text with
    | error e =>
      rw [hwritten] at hwrite
      exact ⟨_, middle, hparent.bind (bind_error hwrite), fun h => by cases h⟩
    | ok after =>
      rw [hwritten] at hwrite
      exact ⟨_, after, hparent.bind (hwrite.bind (log request _ after)), fun _ =>
        hfurnishes.write hwritten⟩

/-- A conversion that is prepared ends in some way, and if it succeeds, the output is written. -/
theorem convert_of_prepared
    (h : Prepared files read validate environment request config source outcome) :
    ∃ answer after,
      Yields (Tool.convert Session.host read validate environment request) files answer after ∧
      ∀ o, answer = .ok o → Files.Written request.output outcome.output files after := by
  obtain ⟨answer, after, hwrite, hwritten⟩ := writeOutput files request outcome.output
  cases answer with
  | error e =>
    refine ⟨.error e, after, convert_of_run h.configured h.readable h.passes ?_,
      fun o ho => by cases ho⟩
    exact (checkOutput h.valid).bind (bind_error hwrite)
  | ok _ =>
    refine ⟨.ok outcome, after, convert_of_run h.configured h.readable h.passes ?_,
      fun _ _ => hwritten rfl⟩
    exact (checkOutput h.valid).bind (hwrite.bind ((log request _ after).bind (pure after outcome)))

end Yields

/-- The program converts what the words of its command line ask for. -/
theorem run_of_yields {command : Command.LineReader} {words : List String}
    (hwords : command words = .convert request) {session : Session}
    {answer : Except Failure Outcome}
    (h : Yields (convert Session.host read validate environment request) session.files answer after) :
    ∃ log, (run Session.host command read validate environment words).run session =
      ((match answer with
        | .ok _ => {}
        | .error failure => { code := 1, report := failure.report }), ⟨after, log⟩) := by
  obtain ⟨log, hlog⟩ := h session.log
  refine ⟨log, ?_⟩
  rw [run, hwords]
  dsimp only
  rw [StateT.run_bind, hlog]
  cases answer <;> rfl

/-- A conversion changes all or nothing. If something obstructs it, the program says so by its exit
code and leaves every file as it was. If the program reports success, the output file holds the text
that the pass made of the input, which is that of the input where there was nothing to do, and
nothing else has changed but that directories missing on the way to the output are there now. This
holds for all readers of command lines and documents and for all validators. -/
theorem run_atomic (command : Command.LineReader) (read : Config.DocumentReader)
    (validate : Module.Validator) (environment : Option String) {words : List String}
    {request : Request} (hwords : command words = .convert request) (session : Session) :
    ∃ exit after,
      (run Session.host command read validate environment words).run session = (exit, after) ∧
      (∀ failure, Obstructed session.files read validate environment request failure →
        exit.code ≠ 0 ∧ after.files = session.files) ∧
      (exit.code = 0 → ∃ config source outcome,
        Prepared session.files read validate environment request config source outcome ∧
        Files.Written request.output outcome.output session.files after.files ∧
        (outcome.isNoop = true → ∃ bytes, session.files.Holds request.input bytes ∧
          after.files.Holds request.output bytes)) := by
  obtain ⟨⟨exit, after⟩, hrun⟩ :
    ∃ r, (run Session.host command read validate environment words).run session = r := ⟨_, rfl⟩
  have hfails (failure : Failure)
      (h : Obstructed session.files read validate environment request failure) :
      exit.code ≠ 0 ∧ after.files = session.files := by
    obtain ⟨log, hyields⟩ := run_of_yields hwords (Yields.convert_of_obstructed h)
    obtain ⟨rfl, rfl⟩ := Prod.mk.inj (hrun.symm.trans hyields)
    exact ⟨Nat.one_ne_zero, rfl⟩
  refine ⟨exit, after, hrun, hfails, fun hcode => ?_⟩
  obtain ⟨failure, hobstructed⟩ | ⟨config, source, outcome, hprepared⟩ :=
    exists_obstructed_or_prepared session.files read validate environment request
  · exact absurd hcode (hfails failure hobstructed).1
  obtain ⟨answer, files, hconvert, hwritten⟩ := Yields.convert_of_prepared hprepared
  obtain ⟨log, hyields⟩ := run_of_yields hwords hconvert
  obtain ⟨rfl, rfl⟩ := Prod.mk.inj (hrun.symm.trans hyields)
  cases answer with
  | error failure => exact absurd hcode Nat.one_ne_zero
  | ok o =>
    have houtput := hwritten o rfl
    refine ⟨config, source, outcome, hprepared, houtput, fun hnoop => ?_⟩
    obtain ⟨-, rfl⟩ := Pass.of_isNoop hprepared.passes hnoop
    exact ⟨source.toUTF8, Files.holds_of_read_eq_ok hprepared.readable, houtput.holds⟩

/-- A module without bulk memory is copied into a directory that is missing. -/
theorem run_atomic_noop :
    let files : Files := { entries := [(["in.wat"], .file "(module)".toUTF8)] }
    let request : Request := ⟨⟨"in.wat"⟩, ⟨"out/x.wat"⟩, none, true, false⟩
    Command.ofWords ["in.wat", "out/x.wat", "--validate"] = .convert request ∧
      ∃ exit after, (run Session.host Command.ofWords Toml.parse? Module.validate none
          ["in.wat", "out/x.wat", "--validate"]).run { files } = (exit, after) ∧
        exit.code = 0 ∧ Files.Written request.output "(module)" files after.files := by
  intro files request
  have hwords : Command.ofWords ["in.wat", "out/x.wat", "--validate"] = .convert request := by
    decide
  obtain ⟨exit, after, hrun, -, hsucceeds⟩ :=
    run_atomic Command.ofWords Toml.parse? Module.validate none hwords { files }
  have hcode : exit.code = 0 := by
    rw [← congrArg (fun r => r.1.code) hrun]
    decide
  obtain ⟨config, source, outcome, hprepared, hwritten, -⟩ := hsucceeds hcode
  have hread : files.read request.input = .ok "(module)" := by decide
  obtain rfl := Except.ok.inj (hread.symm.trans hprepared.readable)
  have hnothing : Pass.run config "(module)" = .ok (.unchanged "(module)") := rfl
  obtain rfl := Except.ok.inj (hnothing.symm.trans hprepared.passes)
  exact ⟨hwords, exit, after, hrun, hcode, hwritten⟩

end BulkMemory.Tool
