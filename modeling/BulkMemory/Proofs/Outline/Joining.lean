import BulkMemory.Outline

/-!
# What a writer has written

A writer keeps no count of its lines: it begins a new line only if it has written some text before. So it
joins its lines but for the empty ones at the front, which leave no trace (`joined`). This holds behind
every line (`Writer.text_line`), hence behind any steps (`Writer.text_run`), those of a part of an
outline included. `writeAll_joins` puts this together for outlines, and says which of them are laid out
with all their lines.
-/

namespace BulkMemory
set_option autoImplicit false

/-! ### Joined lines -/

/-- Lines with line breaks between them, without the empty ones at the front. -/
def joined (texts : List String) : String := "\n".intercalate (texts.dropWhile (· == ""))

section Joined

variable {text : String} {texts : List String}

theorem joined_singleton (text : String) : joined [text] = text := by
  by_cases h : text = ""
  · rw [h]
    rfl
  · simp [joined, h]

theorem joined_empty_cons (texts : List String) : joined ("" :: texts) = joined texts := by
  simp [joined]

theorem joined_cons (h : text ≠ "") (texts : List String) :
    joined (text :: texts) = "\n".intercalate (text :: texts) := by
  simp [joined, h]

theorem intercalate_ne_empty (h : text ≠ "") (texts : List String) :
    "\n".intercalate (text :: texts) ≠ "" := by
  cases texts with
  | nil => simpa using h
  | cons next texts => simp [h]

/-- One more line is joined by a break exactly if there is text in front of it. -/
theorem joined_concat (texts : List String) (text : String) :
    joined (texts ++ [text]) = joined texts ++ (if joined texts = "" then "" else "\n") ++ text := by
  -- along the empty lines at the front, up to the first one that is not empty
  induction texts with
  | nil =>
    rw [List.nil_append, joined_singleton]
    simp [joined]
  | cons first texts ih =>
    by_cases h : first = ""
    · rw [h, List.cons_append, joined_empty_cons, joined_empty_cons, ih]
    · rw [List.cons_append, joined_cons h, joined_cons h, if_neg (intercalate_ne_empty h texts),
        ← List.cons_append, String.intercalate_append_of_ne_nil (by simp) (by simp)]
      simp

theorem length_joined_le (texts : List String) :
    (joined texts).length ≤ ("\n".intercalate texts).length := by
  induction texts with
  | nil => exact Nat.le_refl _
  | cons first texts ih =>
    by_cases h : first = ""
    · rw [h, joined_empty_cons]
      cases texts with
      | nil => simpa using ih
      | cons next texts =>
        rw [String.intercalate_cons_cons, String.length_append]
        omega
    · exact Nat.le_of_eq (by rw [joined_cons h])

/-- Lines are joined in full unless the first one is empty and others follow. -/
theorem joined_eq_intercalate_iff :
    joined texts = "\n".intercalate texts ↔ texts.head? ≠ some "" ∨ texts.length ≤ 1 := by
  cases texts with
  | nil => simp [joined]
  | cons first texts =>
    by_cases h : first = ""
    · subst h
      cases texts with
      | nil => simp [joined_singleton]
      | cons next texts =>
        -- the break behind the empty line is missing
        have hshort := length_joined_le (next :: texts)
        have hne : joined ("" :: next :: texts) ≠ "\n".intercalate ("" :: next :: texts) := by
          intro heq
          have hlength := congrArg String.length heq
          rw [joined_empty_cons, String.intercalate_cons_cons, String.length_append,
            String.length_append] at hlength
          have hbreak : "\n".length = 1 := rfl
          omega
        exact iff_of_false hne (by simp)
    · simp [joined_cons h, h]

end Joined

/-! ### Steps of a writer -/

namespace Writer

/-- What a writer is told to do: a line, or to go one level deeper or back. -/
inductive Step where
  | line (text : String)
  | enter
  | leave
deriving DecidableEq, Repr

def Step.isLine : Step → Bool
  | line _ => true
  | enter | leave => false

def step (w : Writer) : Step → Writer
  | .line text => w.line text
  | .enter => w.deeper
  | .leave => w.shallower

/-- Take steps one after the other. -/
def run (w : Writer) (steps : List Step) : Writer := steps.foldl step w

/-- The lines that steps write, each with its margin, the first one at the given depth. -/
def texts (indent : String) (depth : Nat) : List Step → List String
  | [] => []
  | .line text :: steps => (margin indent depth ++ text) :: texts indent depth steps
  | .enter :: steps => texts indent (depth + 1) steps
  | .leave :: steps => texts indent (depth - 1) steps

variable {w : Writer} {done : List String}

theorem run_append (w : Writer) (front back : List Step) :
    w.run (front ++ back) = (w.run front).run back := List.foldl_append

/-- A line is joined to those written before. -/
theorem text_line (h : w.text = joined done) (text : String) :
    (w.line text).text = joined (done ++ [margin w.indent w.depth ++ text]) := by
  rw [joined_concat, ← h, line]
  simp [String.append_assoc]

/-- So are all lines of further steps. -/
theorem text_run (steps : List Step) (h : w.text = joined done) :
    (w.run steps).text = joined (done ++ texts w.indent w.depth steps) := by
  induction steps generalizing w done with
  | nil => simpa [run, texts] using h
  | cons s steps ih =>
    cases s with
    | line text =>
      have hline := ih (text_line h text)
      rw [List.append_assoc] at hline
      exact hline
    | enter => exact ih (w := w.deeper) h
    | leave => exact ih (w := w.shallower) h

/-- A new writer writes the lines of its steps. -/
theorem text_run_new (indent : String) (depth : Nat) (steps : List Step) :
    (run { indent, depth } steps).text = joined (texts indent depth steps) := by
  have hnothing : ({ indent, depth } : Writer).text = joined [] := rfl
  exact text_run steps hnothing

/-- Fewer steps write the first of the lines. -/
theorem texts_take (indent : String) (depth : Nat) (steps : List Step) (k : Nat) :
    texts indent depth (steps.take k) =
      (texts indent depth steps).take ((steps.take k).countP Step.isLine) := by
  induction steps generalizing depth k with
  | nil => simp [texts]
  | cons s steps ih =>
    cases k with
    | zero => simp [texts]
    | succ k =>
      rw [List.take_succ_cons]
      cases s with
      | line text => rw [texts, texts, ih, List.countP_cons_of_pos rfl, List.take_succ_cons]
      | enter | leave => rw [texts, texts, ih, List.countP_cons_of_neg (by simp [Step.isLine])]

end Writer

/-! ### Outlines as steps -/

namespace Outline

mutual

/-- The steps that write an outline. -/
def steps : Outline → List Writer.Step
  | line text => [.line text]
  | nested items => .enter :: (stepsAll items ++ [.leave])

def stepsAll : List Outline → List Writer.Step
  | [] => []
  | item :: items => steps item ++ stepsAll items

end

/-- The lines of outlines with their margins. -/
def texts (indent : String) (depth : Nat) (items : List Outline) : List String :=
  (linesAll depth items).map fun (depth, text) => Writer.margin indent depth ++ text

mutual

theorem run_steps (w : Writer) : (item : Outline) → w.run (steps item) = write w item
  | line text => rfl
  | nested items => by
    have hitems := run_stepsAll w.deeper items
    have hrun : w.run (steps (nested items)) = (w.deeper.run (stepsAll items)).shallower := by
      rw [steps, ← List.singleton_append, Writer.run_append, Writer.run_append]
      rfl
    rw [hrun, hitems, write]

theorem run_stepsAll (w : Writer) : (items : List Outline) → w.run (stepsAll items) = writeAll w items
  | [] => rfl
  | item :: items => by
    rw [stepsAll, Writer.run_append, run_steps w item, run_stepsAll, writeAll]

end

mutual

theorem texts_steps (indent : String) (depth : Nat) (rest : List Writer.Step) : (item : Outline) →
    Writer.texts indent depth (steps item ++ rest) =
      texts indent depth [item] ++ Writer.texts indent depth rest
  | line text => by simp [steps, Writer.texts, texts, linesAll, lines]
  | nested items => by
    -- the group ends with the step that takes the depth back
    have hitems := texts_stepsAll indent (depth + 1) (.leave :: rest) items
    simpa [steps, Writer.texts, texts, linesAll, lines] using hitems

theorem texts_stepsAll (indent : String) (depth : Nat) (rest : List Writer.Step) :
    (items : List Outline) →
    Writer.texts indent depth (stepsAll items ++ rest) =
      texts indent depth items ++ Writer.texts indent depth rest
  | [] => rfl
  | item :: items => by
    rw [stepsAll, List.append_assoc, texts_steps, texts_stepsAll]
    simp [texts, linesAll]

end

mutual

theorem depth_write (w : Writer) : (item : Outline) → (write w item).depth = w.depth
  | line _ => rfl
  | nested items => by
    have hitems := depth_writeAll w.deeper items
    rw [write, Writer.shallower, hitems]
    rfl

theorem depth_writeAll (w : Writer) : (items : List Outline) → (writeAll w items).depth = w.depth
  | [] => rfl
  | item :: items => by rw [writeAll, depth_writeAll, depth_write]

end

/-- A writer lays outlines out as their lines, joined by line breaks, and is back at its depth
afterwards. Empty lines at the front are lost: all lines are there exactly if the first one is not empty
or the only one. After a part of the steps, the text is made of the lines written until then. -/
theorem writeAll_joins (items : List Outline) (indent : String) (depth : Nat) :
    (writeAll { indent, depth } items).depth = depth ∧
      render items indent depth = joined (texts indent depth items) ∧
      (render items indent depth = "\n".intercalate (texts indent depth items) ↔
        (texts indent depth items).head? ≠ some "" ∨ (texts indent depth items).length ≤ 1) ∧
      Writer.run { indent, depth } (stepsAll items) = writeAll { indent, depth } items ∧
      ∀ k, (Writer.run { indent, depth } ((stepsAll items).take k)).text =
        joined ((texts indent depth items).take
          (((stepsAll items).take k).countP Writer.Step.isLine)) := by
  have hrun := run_stepsAll { indent, depth } items
  have hall : Writer.texts indent depth (stepsAll items) = texts indent depth items := by
    have hnone := texts_stepsAll indent depth [] items
    simpa [Writer.texts] using hnone
  have htext : render items indent depth = joined (texts indent depth items) := by
    rw [render, ← hrun, Writer.text_run_new, hall]
  refine ⟨depth_writeAll _ items, htext, ?_, hrun, fun k => ?_⟩
  · rw [htext]
    exact joined_eq_intercalate_iff
  · rw [Writer.text_run_new, Writer.texts_take, hall]

/-- An empty line in front of another one is not laid out. -/
theorem not_render_intercalate :
    ¬ ∀ items indent depth,
      render items indent depth = "\n".intercalate (texts indent depth items) := by
  intro hjoins
  have hempty := hjoins [.line "", .line "a"] "  " 0
  revert hempty
  decide

end Outline

end BulkMemory
