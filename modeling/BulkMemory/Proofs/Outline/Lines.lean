import BulkMemory.Proofs.Token.Reads

/-!
# Outlines as lines

Behind some text, a writer puts every line of an outline on a new line (`write_eq`). `Outline.Reads`
says what the lexer finds in these lines; each closes the comment of the one before, so outlines one
behind the other read as the lexemes of all of them.
-/

namespace BulkMemory
set_option autoImplicit false

namespace Outline

/-- Lines behind other text, each with a line break in front. -/
def laid (indent : String) (lines : List (Nat × String)) : String :=
  String.join (lines.map fun (depth, text) => "\n" ++ Writer.margin indent depth ++ text)

variable {indent : String}

@[simp] theorem laid_nil (indent : String) : laid indent [] = "" := by simp [laid]

@[simp] theorem laid_append (indent : String) (as bs : List (Nat × String)) :
    laid indent (as ++ bs) = laid indent as ++ laid indent bs := by
  simp [laid]

mutual

/-- Behind some text, an outline adds its lines, and the indentation is what it was. -/
theorem write_eq {w : Writer} (h : w.text ≠ "") : (item : Outline) →
    write w item = { w with text := w.text ++ laid w.indent (lines w.depth item) }
  | line text => by
    simp [write, Writer.line, lines, laid, h, String.append_assoc]
  | nested items => by
    have hitems := writeAll_eq (w := w.deeper) h items
    rw [write, hitems, lines]
    rfl

theorem writeAll_eq {w : Writer} (h : w.text ≠ "") : (items : List Outline) →
    writeAll w items = { w with text := w.text ++ laid w.indent (linesAll w.depth items) }
  | [] => by simp [writeAll, linesAll]
  | item :: items => by
    have hnext : w.text ++ laid w.indent (lines w.depth item) ≠ "" := by simp [h]
    rw [writeAll, write_eq h item, writeAll_eq hnext items, linesAll]
    simp [String.append_assoc]

end

/-- The text of an outline whose first line is not empty. -/
theorem render_cons {first : String} (h : first ≠ "") (items : List Outline) (indent : String)
    (depth : Nat) :
    render (.line first :: items) indent depth =
      Writer.margin indent depth ++ first ++ laid indent (linesAll depth items) := by
  have hfirst : Writer.margin indent depth ++ first ≠ "" := by simp [h]
  have hline : write { indent, depth } (.line first) =
      { indent, depth, text := Writer.margin indent depth ++ first } := by
    simp [write, Writer.line]
  rw [render, writeAll, hline, writeAll_eq hfirst]

theorem linesAll_append (depth : Nat) (as bs : List Outline) :
    linesAll depth (as ++ bs) = linesAll depth as ++ linesAll depth bs := by
  induction as with
  | nil => rfl
  | cons a as ih => rw [List.cons_append, linesAll, ih, linesAll, List.append_assoc]

/-! ### What the lines read as -/

open Lexeme

theorem eq_of_mem_margin (hindent : Config.isIndent indent = true) {depth : Nat} {c : Char}
    (hc : c ∈ (Writer.margin indent depth).toList) : c = ' ' ∨ c = '\t' := by
  obtain ⟨text, ⟨-, rfl⟩, hmem⟩ : ∃ text, (depth ≠ 0 ∧ text = indent) ∧ c ∈ text.toList := by
    simpa only [Writer.margin, String.toList_join, List.mem_flatMap, List.mem_replicate] using hc
  simpa using List.all_eq_true.1 hindent c hmem

/-- The margin is made of blanks. -/
theorem reads_margin (hindent : Config.isIndent indent = true) (depth : Nat) :
    Lexeme.Reads (fun _ => True) (Writer.margin indent depth).toList [] := by
  refine reads_blanks fun c hc => ?_
  rcases eq_of_mem_margin hindent hc with rfl | rfl <;> decide

/-- What the lexer finds in the lines of some outlines, whatever their depth. -/
def Reads (indent : String) (items : List Outline) (ls : List Lexeme) : Prop :=
  ∀ depth, Lexeme.Reads EndsLine (laid indent (linesAll depth items)).toList ls

theorem endsLine_laid {rest : List Char} (h : EndsLine rest) (lines : List (Nat × String)) :
    EndsLine ((laid indent lines).toList ++ rest) := by
  cases lines with
  | nil => simpa using h
  | cons l lines =>
    intro c hc
    obtain rfl : '\n' = c := by simpa [laid] using hc
    rfl

namespace Reads

variable {as bs items : List Outline} {ls ms : List Lexeme}

theorem nil : Reads indent [] [] := fun _ => by simpa [linesAll] using Lexeme.Reads.nil

theorem append (h : Reads indent as ls) (h' : Reads indent bs ms) :
    Reads indent (as ++ bs) (ls ++ ms) := by
  intro depth
  rw [linesAll_append, laid_append, String.toList_append]
  exact (h depth).append (h' depth) fun rest hrest => endsLine_laid hrest _

theorem nested (h : Reads indent items ls) : Reads indent [.nested items] ls := by
  intro depth
  simpa [linesAll, lines] using h (depth + 1)

theorem line {text : String} (hindent : Config.isIndent indent = true)
    (h : Lexeme.Reads EndsLine text.toList ls) : Reads indent [.line text] ls := by
  intro depth
  have hall := reads_break.append ((reads_margin hindent depth).append h fun _ _ => trivial)
    fun _ _ => trivial
  simpa [linesAll, lines, laid] using hall

/-- Outlines behind the words that open a group, and a line that closes it. -/
theorem group {head : String} {hs : List Lexeme} (hindent : Config.isIndent indent = true)
    (hhead : Lexeme.Reads Delimited head.toList hs) (h : Reads indent items ls) :
    Reads indent ([.line head, .nested items, .line ")"]) (hs ++ (ls ++ [Form.closing])) := by
  have hclosing : Lexeme.Reads EndsLine ")".toList [Form.closing] :=
    reads_closing.everywhere
  have hopening := hhead.mono fun _ => EndsLine.delimited
  exact (line hindent hopening).append (h.nested.append (line hindent hclosing))

/-- Lines read alike with other text in front of them and without it. -/
theorem render {first : String} (hfirst : first ≠ "") (h : Reads indent (.line first :: items) ls)
    (depth : Nat) :
    Lexeme.Reads EndsLine (Outline.render (.line first :: items) indent depth).toList ls := by
  have hlaid : laid indent (linesAll depth (.line first :: items)) =
      "\n" ++ Outline.render (.line first :: items) indent depth := by
    rw [render_cons hfirst, linesAll, lines, List.singleton_append, laid, List.map_cons,
      String.join_cons, ← laid, String.append_assoc, String.append_assoc, String.append_assoc]
  have hdepth := h depth
  rw [hlaid, String.toList_append] at hdepth
  exact Lexeme.Reads.of_break hdepth (by simp [EndsLine])

end Reads

end Outline

end BulkMemory
