import BulkMemory.Tool

/-!
# What the steps of the program do to the files

`Yields` says what an action of the program comes to on a tree of files: its answer and the files
behind it. What it logs is left out. There is a rule for each way to put actions together and one
for what the host is asked to do with files (`Yields.attempt`).
-/

namespace BulkMemory.Tool
set_option autoImplicit false

/-- On the files before it, whatever has been logged, an action comes to an answer and leaves the
files after it. -/
def Yields {α : Type} (action : ExceptT Failure (StateM Session) α) (before : Files)
    (answer : Except Failure α) (after : Files) : Prop :=
  ∀ log, ∃ lines, action.run.run ⟨before, log⟩ = (answer, ⟨after, lines⟩)

namespace Yields

variable {α β : Type} {action : ExceptT Failure (StateM Session) α}
  {next : α → ExceptT Failure (StateM Session) β} {before middle after files : Files} {a : α}
  {failure : Failure} {answer : Except Failure β}

theorem pure (files : Files) (a : α) : Yields (pure a) files (.ok a) files :=
  fun log => ⟨log, rfl⟩

theorem throw (files : Files) (failure : Failure) :
    Yields (throw failure : ExceptT Failure (StateM Session) α) files (.error failure) files :=
  fun log => ⟨log, rfl⟩

theorem bind (haction : Yields action before (.ok a) middle)
    (hnext : Yields (next a) middle answer after) : Yields (action >>= next) before answer after := by
  intro log
  obtain ⟨lines, hfirst⟩ := haction log
  obtain ⟨lines', hsecond⟩ := hnext lines
  refine ⟨lines', ?_⟩
  rw [ExceptT.run_bind, StateT.run_bind, hfirst]
  exact hsecond

/-- An action that fails leaves nothing to the next one. -/
theorem bind_error (haction : Yields action before (.error failure) after) :
    Yields (action >>= next) before (.error failure) after := by
  intro log
  obtain ⟨lines, hfirst⟩ := haction log
  refine ⟨lines, ?_⟩
  rw [ExceptT.run_bind, StateT.run_bind, hfirst]
  rfl

/-- A request to the host that concerns files. -/
theorem attempt (f : Files → Except FileError α × Files) (failure : FileError → Failure)
    (files : Files) : Yields (Tool.attempt (Session.onFiles f) failure) files
      ((f files).1.mapError failure) (f files).2 := by
  intro log
  refine ⟨log, ?_⟩
  have hanswer :
      (Session.onFiles f).run ⟨files, log⟩ = ((f files).1, ⟨(f files).2, log⟩) := rfl
  rw [Tool.attempt, ExceptT.run_bind, StateT.run_bind, ExceptT.run_lift, StateT.run_map, hanswer]
  cases (f files).1 <;> rfl

/-- Reading changes no file. -/
theorem read {p : Path} {answer : Except FileError String} (h : files.read p = answer)
    (failure : FileError → Failure) :
    Yields (Tool.attempt (Session.host.read p) failure) files (answer.mapError failure) files :=
  h ▸ attempt (fun files => (files.read p, files)) failure files

/-- No file changes when a line is logged. -/
theorem log (request : Request) (e : Event) (files : Files) :
    Yields (Tool.log Session.host request e) files (.ok ()) files := by
  intro log
  rw [Tool.log]
  split
  · exact ⟨log ++ [e], rfl⟩
  · exact ⟨log, rfl⟩

theorem forM_log (request : Request) (es : List Event) (files : Files) :
    Yields (es.forM (Tool.log Session.host request)) files (.ok ()) files := by
  induction es with
  | nil => exact pure files ()
  | cons e es ih =>
    exact (log request e files).bind ih

end Yields

end BulkMemory.Tool
