/-!
# Readers

A `Reader` takes something off the front of a list of items, such as the characters of a text, or
fails. A choice `p <|> q` tries `q` where `p` failed, on the same items. `Reader.many` repeats a
reader as long as it makes progress, so repetition ends whatever is repeated.
-/

namespace BulkMemory
set_option autoImplicit false

/-- Takes a value off the front of a list of items, or fails. -/
abbrev Reader (τ α : Type) := StateT (List τ) Option α

namespace Reader

variable {τ α β : Type}

/-- Take one item that passes a test. -/
def satisfy (test : τ → Bool) : Reader τ τ
  | [] => none
  | t :: ts => if test t then some (t, ts) else none

/-- Take the longest run of items that pass a test. -/
def takeWhile (test : τ → Bool) : Reader τ (List τ) :=
  fun s => some (s.takeWhile test, s.dropWhile test)

/-- Succeed at the end of the list only. -/
def atEnd : Reader τ Unit
  | [] => some ((), [])
  | _ :: _ => none

/-- What a reader that makes progress takes off a list when it is repeated. -/
def manyFrom (p : Reader τ α) (s : List τ) : List α × List τ :=
  match p s with
  | none => ([], s)
  | some (a, rest) =>
    if rest.length < s.length then
      let (as, last) := manyFrom p rest
      (a :: as, last)
    else ([], s)
termination_by s.length

/-- Repeat a reader as long as it succeeds and makes progress. -/
def many (p : Reader τ α) : Reader τ (List α) := fun s => some (manyFrom p s)

/-- One or more items with separators between them. -/
def sepBy1 (item : Reader τ α) (separator : Reader τ β) : Reader τ (List α) := do
  let first ← item
  let more ← many (separator *> item)
  return first :: more

/-- Any number of items with separators between them. -/
def sepBy (item : Reader τ α) (separator : Reader τ β) : Reader τ (List α) :=
  sepBy1 item separator <|> pure []

/-- The same item a given number of times. -/
def times (p : Reader τ α) : Nat → Reader τ (List α)
  | 0 => pure []
  | n + 1 => do
    let a ← p
    return a :: (← times p n)

/-- Go on only with a value that passes a test. -/
def check (p : Reader τ α) (test : α → Bool) : Reader τ α := do
  let a ← p
  if test a then return a else failure

/-- Go on only with a value that can be converted. -/
def convert (p : Reader τ α) (f : α → Option β) : Reader τ β := do
  let a ← p
  match f a with
  | some b => return b
  | none => failure

/-- The items that a reader takes. -/
def taken (p : Reader τ α) : Reader τ (List τ) := fun s => do
  let (_, rest) ← p s
  return (s.take (s.length - rest.length), rest)

/-- Take the given character. -/
def char (c : Char) : Reader Char Char := satisfy (· == c)

/-- Take the given characters. -/
def chars : List Char → Reader Char Unit
  | [] => pure ()
  | c :: cs => do
    let _ ← char c
    chars cs

/-- Take the given word. -/
def word (w : String) : Reader Char Unit := chars w.toList

end Reader

end BulkMemory
