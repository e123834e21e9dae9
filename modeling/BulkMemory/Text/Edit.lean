import BulkMemory.Text.Slice

/-!
# Edits

An edit exchanges a range of bytes for new text. `Edit.applyAll?` makes a list of edits in one pass
from left to right. It refuses a list whose ranges overlap, run backwards, leave the text or cut a
character, so a result is always the old text with exactly those ranges exchanged.
-/

namespace BulkMemory
set_option autoImplicit false

/-- The text to put in place of a range of bytes. -/
structure Edit where
  span : Span
  text : String
deriving DecidableEq, Repr

namespace Edit

/-- Insert text at an offset and remove nothing. -/
def insertion (offset : Nat) (text : String) : Edit := ⟨⟨offset, offset⟩, text⟩

/-- Make the edits in the part of a text that begins at byte `cursor`. -/
def applyFrom? (cursor : Nat) : List Edit → List Char → Option (List Char)
  | [], cs => some cs
  | e :: es, cs =>
    if cursor ≤ e.span.start ∧ e.span.start ≤ e.span.stop then do
      let (kept, tail) ← splitAt? (e.span.start - cursor) cs
      let (_, rest) ← splitAt? e.span.size tail
      let after ← applyFrom? e.span.stop es rest
      return kept ++ e.text.toList ++ after
    else none

/-- Make the edits in a text; `none` when one of them does not fit. -/
def applyAll? (edits : List Edit) (source : String) : Option String :=
  (applyFrom? 0 edits source.toList).map String.ofList

theorem applyFrom?_nil (cursor : Nat) (cs : List Char) : applyFrom? cursor [] cs = some cs := rfl

/-- An edit whose range is the middle part of a text leaves the other two parts alone. -/
theorem applyFrom?_cons_append (cursor : Nat) (front middle rest : List Char) (text : String)
    (es : List Edit) :
    applyFrom? cursor
        (⟨⟨cursor + byteSize front, cursor + byteSize front + byteSize middle⟩, text⟩ :: es)
        (front ++ (middle ++ rest)) =
      (applyFrom? (cursor + byteSize front + byteSize middle) es rest).map
        fun after => front ++ text.toList ++ after := by
  have hfront : cursor + byteSize front - cursor = byteSize front := by omega
  have hmiddle : (⟨cursor + byteSize front, cursor + byteSize front + byteSize middle⟩ : Span).size
      = byteSize middle := by simp only [Span.size]; omega
  rw [applyFrom?, if_pos ⟨by simp, by simp⟩]
  simp only [hfront, hmiddle, splitAt?_append, Option.bind_eq_bind, Option.bind_some]
  cases applyFrom? (cursor + byteSize front + byteSize middle) es rest <;> rfl

/-- An edit at the very front. -/
theorem applyFrom?_cons (cursor : Nat) (middle rest : List Char) (text : String) (es : List Edit) :
    applyFrom? cursor (⟨⟨cursor, cursor + byteSize middle⟩, text⟩ :: es) (middle ++ rest) =
      (applyFrom? (cursor + byteSize middle) es rest).map fun after => text.toList ++ after := by
  simpa using applyFrom?_cons_append cursor [] middle rest text es

/-- Edits that all come behind a front part leave it alone. -/
theorem applyFrom?_append {cursor : Nat} {front : List Char} {es : List Edit}
    (h : ∀ e ∈ es, cursor + byteSize front ≤ e.span.start) (rest : List Char) :
    applyFrom? cursor es (front ++ rest) =
      (applyFrom? (cursor + byteSize front) es rest).map (front ++ ·) := by
  cases es with
  | nil => rfl
  | cons e es =>
    have hstart := h e List.mem_cons_self
    have hcut : e.span.start - cursor = byteSize front + (e.span.start - (cursor + byteSize front)) := by
      omega
    rw [applyFrom?, applyFrom?]
    by_cases hspan : e.span.start ≤ e.span.stop
    · rw [if_pos ⟨by omega, hspan⟩, if_pos ⟨hstart, hspan⟩, hcut, splitAt?_append_add]
      cases splitAt? (e.span.start - (cursor + byteSize front)) rest with
      | none => rfl
      | some split =>
        obtain ⟨kept, tail⟩ := split
        simp only [Option.map_some, Option.bind_eq_bind, Option.bind_some]
        cases splitAt? e.span.size tail with
        | none => rfl
        | some split =>
          obtain ⟨gone, rest⟩ := split
          simp only [Option.bind_some]
          cases applyFrom? e.span.stop es rest <;> simp
    · rw [if_neg (fun hboth => hspan hboth.2), if_neg (fun hboth => hspan hboth.2)]
      rfl

end Edit

end BulkMemory
