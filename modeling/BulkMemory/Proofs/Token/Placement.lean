import BulkMemory.Token.Lexer

/-!
# Lexemes at their places

`Token.placeAll` walks along consecutive lexemes. The lemmas take a walk in pieces
(`placeAll_append`), find the lexemes in front of a token (`exists_of_placeAll_eq_append`), and pass
from tokens to those that carry meaning.
-/

namespace BulkMemory
set_option autoImplicit false

namespace Lexeme

@[simp] theorem chars_nil : chars [] = [] := rfl

@[simp] theorem chars_cons (l : Lexeme) (ls : List Lexeme) :
    chars (l :: ls) = l.text.toList ++ chars ls := rfl

@[simp] theorem chars_append (as bs : List Lexeme) : chars (as ++ bs) = chars as ++ chars bs := by
  simp [chars]

/-- A run of lexemes ends where the rest of it does once the first one is passed. -/
theorem add_byteSize_chars_cons (start : Nat) (l : Lexeme) (ls : List Lexeme) :
    start + byteSize (chars (l :: ls)) = start + l.size + byteSize (chars ls) := by
  rw [chars_cons, byteSize_append, ← Nat.add_assoc]
  rfl

/-- The lexemes that carry meaning. -/
def significant (ls : List Lexeme) : List Lexeme := ls.filter fun l => !l.isTrivia

@[simp] theorem significant_nil : significant [] = [] := rfl

@[simp] theorem significant_append (as bs : List Lexeme) :
    significant (as ++ bs) = significant as ++ significant bs := List.filter_append ..

end Lexeme

namespace Token

variable {start : Nat} {position : Position} {l : Lexeme} {ls : List Lexeme}

@[simp] theorem placeAll_nil (start : Nat) (position : Position) : placeAll start position [] = [] :=
  rfl

/-- The second part of a run of lexemes begins where the first one ends. -/
theorem placeAll_append (start : Nat) (position : Position) (as bs : List Lexeme) :
    placeAll start position (as ++ bs) =
      placeAll start position as ++
        placeAll (start + byteSize (Lexeme.chars as)) (position.after (Lexeme.chars as)) bs := by
  induction as generalizing start position with
  | nil => simp
  | cons a as ih =>
    simp [placeAll, ih, Lexeme.size, Nat.add_assoc, Position.after_append]

/-- A part of the tokens of a text is a part of its lexemes. -/
theorem exists_of_placeAll_eq_append {front back : List Token}
    (h : placeAll start position ls = front ++ back) :
    ∃ as bs, ls = as ++ bs ∧ placeAll start position as = front ∧
      placeAll (start + byteSize (Lexeme.chars as)) (position.after (Lexeme.chars as)) bs = back := by
  induction front generalizing start position ls with
  | nil => exact ⟨[], ls, rfl, rfl, by simpa using h⟩
  | cons t front ih =>
    cases ls with
    | nil => cases h
    | cons l ls =>
      rw [placeAll, List.cons_append, List.cons.injEq] at h
      obtain ⟨rfl, hrest⟩ := h
      obtain ⟨as, bs, rfl, rfl, rfl⟩ := ih hrest
      exact ⟨l :: as, bs, rfl, rfl, by simp [Lexeme.size, Nat.add_assoc, Position.after_append]⟩

/-- A run of lexemes ends where its last token does. -/
theorem stop_getLast?_placeAll (start : Nat) (position : Position) (ls : List Lexeme) :
    ((placeAll start position ls).getLast?.map stop).getD start =
      start + byteSize (Lexeme.chars ls) := by
  induction ls generalizing start position with
  | nil => rfl
  | cons l ls ih =>
    have hrest := ih (start + l.size) (position.after l.text.toList)
    rw [placeAll, List.getLast?_cons, Lexeme.add_byteSize_chars_cons, ← hrest]
    cases (placeAll (start + l.size) (position.after l.text.toList) ls).getLast? <;> rfl

/-- The tokens of a run of lexemes lie within it. -/
theorem within_of_mem_placeAll {t : Token} (h : t ∈ placeAll start position ls) :
    start ≤ t.start ∧ t.stop ≤ start + byteSize (Lexeme.chars ls) := by
  induction ls generalizing start position with
  | nil => cases h
  | cons l ls ih =>
    rw [Lexeme.add_byteSize_chars_cons]
    rcases List.mem_cons.1 h with rfl | h
    · exact ⟨Nat.le_refl _, by simp only [stop]; omega⟩
    · have hrest := ih h
      omega

@[simp] theorem significant_nil : significant [] = [] := rfl

@[simp] theorem significant_append (ts us : List Token) :
    significant (ts ++ us) = significant ts ++ significant us := List.filter_append ..

theorem significant_cons_of_trivia {t : Token} (h : t.isTrivia = true) (ts : List Token) :
    significant (t :: ts) = significant ts := by
  simp [significant, h]

theorem significant_cons_of_not_trivia {t : Token} (h : t.isTrivia = false) (ts : List Token) :
    significant (t :: ts) = t :: significant ts := by
  simp [significant, h]

@[simp] theorem significant_significant (ts : List Token) :
    significant (significant ts) = significant ts := by
  simp [significant]

theorem meaning_eq (ts : List Token) : meaning ts = Lexeme.significant (ts.map toLexeme) := by
  simp only [meaning, significant, Lexeme.significant, List.filter_map]
  rfl

/-- The lexemes that carry meaning may be picked before or after they get their places. -/
theorem map_significant_placeAll (start : Nat) (position : Position) (ls : List Lexeme) :
    (significant (placeAll start position ls)).map toLexeme = Lexeme.significant ls := by
  have hmeaning := meaning_eq (placeAll start position ls)
  rwa [map_toLexeme_placeAll] at hmeaning

end Token

end BulkMemory
