import BulkMemory.Token

/-!
# Parenthesised forms

The lexemes of a module that carry meaning make up a forest: a `Form` is a lexeme, or a group of
forms between parentheses. `Form.ofLexemes?` reads a forest, and `Form.lexemesAll` writes it.
-/

namespace BulkMemory
set_option autoImplicit false

/-- A lexeme or a group. -/
inductive Form where
  | atom (lexeme : Lexeme)
  | group (items : List Form)
deriving Repr, Inhabited

namespace Form

/-- The opening parenthesis. -/
def opening : Lexeme := ⟨.leftParen, "("⟩

/-- The closing parenthesis. -/
def closing : Lexeme := ⟨.rightParen, ")"⟩

mutual

/-- The lexemes of a form. -/
def lexemes : Form → List Lexeme
  | atom l => [l]
  | group items => opening :: (lexemesAll items ++ [closing])

/-- The lexemes of several forms, one behind the other. -/
def lexemesAll : List Form → List Lexeme
  | [] => []
  | f :: fs => f.lexemes ++ lexemesAll fs

end

@[simp] theorem lexemesAll_nil : lexemesAll [] = [] := rfl

@[simp] theorem lexemesAll_append (as bs : List Form) :
    lexemesAll (as ++ bs) = lexemesAll as ++ lexemesAll bs := by
  induction as with
  | nil => rfl
  | cons a as ih => rw [List.cons_append, lexemesAll, ih, lexemesAll, List.append_assoc]

/-- Read forms behind those in `here`, which stand in open groups; the items of each open group
wait in `around`, the innermost group first. All items are in reverse. -/
def readForest (around : List (List Form)) (here : List Form) : List Lexeme → Option (List Form)
  | [] => if around.isEmpty then some here.reverse else none
  | l :: ls =>
    match l.kind with
    | .leftParen => readForest (here :: around) [] ls
    | .rightParen =>
      match around with
      | [] => none
      | outer :: further => readForest further (.group here.reverse :: outer) ls
    | _ => readForest around (.atom l :: here) ls

/-- The forest that lexemes make up, if their parentheses match. -/
def ofLexemes? (ls : List Lexeme) : Option (List Form) := readForest [] [] ls

end Form

end BulkMemory
