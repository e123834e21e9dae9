import BulkMemory.Text.Blank
import BulkMemory.Token

/-!
# Cutting text into lexemes

`Lexer.next` takes one lexeme off the front of a text, `Lexer.run` repeats it to the end, and
`tokenize` gives the lexemes their places. Nothing is dropped: `next_eq_append` says that the
lexeme and the rest make up the text, and `next_rest_length_lt` that the rest is shorter, so the
repetition ends.
-/

namespace BulkMemory
set_option autoImplicit false

/-- A lexeme that begins and never ends. -/
inductive LexFault where
  | unterminatedString
  | unterminatedComment
deriving DecidableEq, Repr, Inhabited

/-- A fault and the place of the first character of the lexeme. -/
structure LexError where
  fault : LexFault
  position : Position
deriving DecidableEq, Repr, Inhabited

namespace LexFault

/-- The phrase for a fault in messages. -/
def describe : LexFault → String
  | unterminatedString => "unterminated string literal"
  | unterminatedComment => "unterminated block comment"

end LexFault

namespace Lexer

/-- The rest of a block comment of which `depth` openings wait for their end, and what follows it.
Openings and ends are counted from left to right and do not share characters. -/
def closeComment : (depth : Nat) → List Char → Option (List Char × List Char)
  | 0, cs => some ([], cs)
  | _ + 1, [] => none
  | depth + 1, '(' :: ';' :: cs =>
    (closeComment (depth + 2) cs).map fun (front, rest) => ('(' :: ';' :: front, rest)
  | depth + 1, ';' :: ')' :: cs =>
    (closeComment depth cs).map fun (front, rest) => (';' :: ')' :: front, rest)
  | depth + 1, c :: cs =>
    (closeComment (depth + 1) cs).map fun (front, rest) => (c :: front, rest)

/-- The rest of a string up to its closing quote, and what follows it. A backslash takes the next
character with it, whatever that is. -/
def closeString : List Char → Option (List Char × List Char)
  | [] => none
  | '"' :: cs => some (['"'], cs)
  | ['\\'] => none
  | '\\' :: c :: cs => (closeString cs).map fun (front, rest) => ('\\' :: c :: front, rest)
  | c :: cs => (closeString cs).map fun (front, rest) => (c :: front, rest)

/-- Whether a character ends a run of other characters. -/
def isDelimiter (c : Char) : Bool :=
  isBlank c || c == '(' || c == ')' || c == '"' || c == ';'

/-- The kind of a run of characters, read off its first two. -/
def classify : List Char → Kind
  | [] => .reserved
  | c :: cs =>
    if c == '$' && !cs.isEmpty then .id
    else if c.isDigit then .number
    else if (c == '+' || c == '-') && cs.head?.any Char.isDigit then .number
    else if c.isLower then .keyword
    else .reserved

/-- One lexeme and what follows it. -/
structure Step where
  kind : Kind
  text : List Char
  rest : List Char
deriving DecidableEq, Repr

/-- Take the lexeme that begins with `c` off the front of a text. -/
def next (c : Char) (cs : List Char) : Except LexFault Step :=
  if c = '(' then
    match cs with
    | ';' :: body =>
      match closeComment 1 body with
      | some (front, rest) => .ok ⟨.blockComment, '(' :: ';' :: front, rest⟩
      | none => .error .unterminatedComment
    | _ => .ok ⟨.leftParen, [c], cs⟩
  else if c = ')' then .ok ⟨.rightParen, [c], cs⟩
  else if c = '"' then
    match closeString cs with
    | some (front, rest) => .ok ⟨.string, '"' :: front, rest⟩
    | none => .error .unterminatedString
  else if c = ';' && cs.head? == some ';' then
    .ok ⟨.lineComment, c :: cs.takeWhile (· != '\n'), cs.dropWhile (· != '\n')⟩
  else if isBlank c then
    .ok ⟨.blank, c :: cs.takeWhile isBlank, cs.dropWhile isBlank⟩
  else
    let text := c :: cs.takeWhile (!isDelimiter ·)
    .ok ⟨classify text, text, cs.dropWhile (!isDelimiter ·)⟩

theorem closeComment_eq_append {depth : Nat} {cs front rest : List Char}
    (h : closeComment depth cs = some (front, rest)) : cs = front ++ rest := by
  fun_induction closeComment depth cs generalizing front rest with
  | case1 => simp_all
  | case2 => simp at h
  | case3 _ _ ih | case4 _ _ ih | case5 _ _ _ _ _ ih =>
    obtain ⟨⟨front', rest'⟩, hclose, heq⟩ := Option.map_eq_some_iff.1 h
    cases heq
    simp [ih hclose]

theorem closeString_eq_append {cs front rest : List Char}
    (h : closeString cs = some (front, rest)) : cs = front ++ rest := by
  fun_induction closeString cs generalizing front rest with
  | case1 | case3 => simp at h
  | case2 =>
    cases h
    rfl
  | case4 _ _ ih | case5 _ _ _ _ _ ih =>
    obtain ⟨⟨front', rest'⟩, hclose, heq⟩ := Option.map_eq_some_iff.1 h
    cases heq
    simp [ih hclose]

/-- A lexeme and what follows it make up the text. -/
theorem next_eq_append {c : Char} {cs : List Char} {s : Step} (h : next c cs = .ok s) :
    c :: cs = s.text ++ s.rest := by
  unfold next at h
  split at h
  · next hc =>
    subst hc
    split at h
    · split at h
      · next hclose =>
        cases h
        simp [closeComment_eq_append hclose]
      · cases h
    · cases h
      simp
  · split at h
    · cases h
      simp
    · split at h
      · next hc =>
        subst hc
        split at h
        · next hclose =>
          cases h
          simp [closeString_eq_append hclose]
        · cases h
      · split at h
        · cases h
          simp [List.takeWhile_append_dropWhile]
        · split at h <;> cases h <;> simp [List.takeWhile_append_dropWhile]

/-- A lexeme is never empty. -/
theorem next_text_ne_nil {c : Char} {cs : List Char} {s : Step} (h : next c cs = .ok s) :
    s.text ≠ [] := by
  unfold next at h
  split at h
  · split at h
    · split at h <;> cases h
      simp
    · cases h
      simp
  · split at h
    · cases h
      simp
    · split at h
      · split at h <;> cases h
        simp
      · split at h
        · cases h
          simp
        · split at h <;> cases h <;> simp

theorem next_rest_length_lt {c : Char} {cs : List Char} {s : Step} (h : next c cs = .ok s) :
    s.rest.length < (c :: cs).length := by
  have happend := congrArg List.length (next_eq_append h)
  have hpos := List.length_pos_iff.2 (next_text_ne_nil h)
  rw [List.length_append] at happend
  omega

/-- The lexemes of a text, and the fault that ended the search, if one did. -/
def run : List Char → List Lexeme × Option LexFault
  | [] => ([], none)
  | c :: cs =>
    match _h : next c cs with
    | .error fault => ([], some fault)
    | .ok s =>
      let (ls, fault?) := run s.rest
      (⟨s.kind, String.ofList s.text⟩ :: ls, fault?)
termination_by cs => cs.length
decreasing_by exact next_rest_length_lt ‹_›

end Lexer

/-- The characters of consecutive lexemes. -/
def Lexeme.chars (ls : List Lexeme) : List Char :=
  ls.flatMap fun l => l.text.toList

/-- The tokens of a source, or the first lexeme that does not end. -/
def tokenize (source : String) : Except LexError (List Token) :=
  match Lexer.run source.toList with
  | (ls, none) => .ok (Token.placeAll 0 .start ls)
  | (ls, some fault) => .error ⟨fault, Position.start.after (Lexeme.chars ls)⟩

end BulkMemory
