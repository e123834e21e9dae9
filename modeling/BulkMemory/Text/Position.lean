/-!
# Places in a text

A place is named in two ways: by a `Position` (line and column, for people) and by a byte offset
(for cutting). Columns count characters, offsets count the bytes of the UTF-8 encoding.
`Position.after` and `byteSize` say how both move over a run of characters; `after_append` and
`byteSize_append` let a long run be taken in pieces. `Position.after_ne_self` says that no two places
of a text are the same.
-/

namespace BulkMemory
set_option autoImplicit false

/-- A line and a column, both counted from one. -/
structure Position where
  line : Nat
  column : Nat
deriving DecidableEq, Repr, Inhabited

namespace Position

/-- The place of the first character of a text. -/
def start : Position := ⟨1, 1⟩

/-- The place after one more character: only a line feed begins a line. -/
def advance (p : Position) (c : Char) : Position :=
  if c = '\n' then ⟨p.line + 1, 1⟩ else ⟨p.line, p.column + 1⟩

/-- The place after a run of characters. -/
def after (p : Position) (cs : List Char) : Position :=
  cs.foldl advance p

@[simp] theorem after_nil (p : Position) : p.after [] = p := rfl

@[simp] theorem after_cons (p : Position) (c : Char) (cs : List Char) :
    p.after (c :: cs) = (p.advance c).after cs := rfl

theorem after_append (p : Position) (a b : List Char) :
    p.after (a ++ b) = (p.after a).after b := by
  simp [after, List.foldl_append]

/-- Each line feed begins a line. -/
theorem line_after (p : Position) (cs : List Char) :
    (p.after cs).line = p.line + cs.count '\n' := by
  induction cs generalizing p with
  | nil => simp
  | cons c cs ih =>
    rw [after_cons, ih, advance]
    by_cases hc : c = '\n'
    · simp [hc]
      omega
    · simp [hc]

/-- Behind a line feed stands the first column. -/
theorem after_concat_newline (p : Position) (cs : List Char) :
    p.after (cs ++ ['\n']) = ⟨p.line + (cs ++ ['\n']).count '\n', 1⟩ := by
  have hline := p.line_after (cs ++ ['\n'])
  rw [after_append] at hline ⊢
  exact congrArg (fun line => (⟨line, 1⟩ : Position)) hline

/-- On one line the column counts the characters. -/
theorem column_after (p : Position) {cs : List Char} (h : '\n' ∉ cs) :
    (p.after cs).column = p.column + cs.length := by
  induction cs generalizing p with
  | nil => rfl
  | cons c cs ih =>
    have hc : c ≠ '\n' := fun hc => h (by simp [hc])
    rw [after_cons, ih _ fun hmem => h (List.mem_cons_of_mem c hmem), advance, if_neg hc,
      List.length_cons]
    simp only
    omega

/-- No two places of a text are the same. -/
theorem after_ne_self (p : Position) {cs : List Char} (h : cs ≠ []) : p.after cs ≠ p := by
  intro heq
  have hline := p.line_after cs
  rw [heq] at hline
  have hnone : '\n' ∉ cs := List.count_eq_zero.1 (by omega)
  have hcolumn := p.column_after hnone
  rw [heq] at hcolumn
  exact h (List.length_eq_zero_iff.1 (by omega))

/-- The line feeds in front of a place tell its line, and the characters behind the last of them its
column. -/
theorem start_after_reverse (cs : List Char) :
    start.after cs.reverse = ⟨1 + cs.count '\n', 1 + (cs.takeWhile (· != '\n')).length⟩ := by
  induction cs with
  | nil => rfl
  | cons c cs ih =>
    rw [List.reverse_cons, after_append, ih, after_cons, after_nil, advance]
    by_cases hc : c = '\n'
    · simp [hc, Nat.add_assoc]
    · simp [hc, Nat.add_comm]

/-- A position as it is shown in messages, line before column. -/
def describe (p : Position) : String :=
  toString p.line ++ ":" ++ toString p.column

end Position

/-- The number of bytes of a text in UTF-8. -/
def byteSize : List Char → Nat
  | [] => 0
  | c :: cs => c.utf8Size + byteSize cs

@[simp] theorem byteSize_nil : byteSize [] = 0 := rfl

@[simp] theorem byteSize_cons (c : Char) (cs : List Char) :
    byteSize (c :: cs) = c.utf8Size + byteSize cs := rfl

@[simp] theorem byteSize_append (a b : List Char) :
    byteSize (a ++ b) = byteSize a + byteSize b := by
  induction a with
  | nil => simp
  | cons c cs ih => simp [ih, Nat.add_assoc]

theorem utf8ByteSize_ofList (cs : List Char) : (String.ofList cs).utf8ByteSize = byteSize cs := by
  induction cs with
  | nil => rfl
  | cons c cs ih =>
    rw [String.ofList_cons, String.utf8ByteSize_append, String.utf8ByteSize_singleton, ih,
      byteSize_cons]

theorem byteSize_toList (s : String) : byteSize s.toList = s.utf8ByteSize := by
  rw [← utf8ByteSize_ofList, String.ofList_toList]

/-- A half-open range of byte offsets. -/
structure Span where
  start : Nat
  stop : Nat
deriving DecidableEq, Repr, Inhabited

namespace Span

/-- The number of bytes in the range. -/
def size (s : Span) : Nat := s.stop - s.start

/-- Whether the range holds no byte. -/
def isEmpty (s : Span) : Bool := s.start == s.stop

/-- The least range that holds both. -/
def union (s t : Span) : Span := ⟨min s.start t.start, max s.stop t.stop⟩

end Span

end BulkMemory
