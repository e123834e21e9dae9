import BulkMemory.Text.Position

/-!
# Lexemes and tokens

A `Lexeme` is a piece of module text with its kind; a `Token` is a lexeme at its place in a source.
What a module means depends on its lexemes other than trivia, and only messages and edits need the
places. `Token.placeAll` gives a run of lexemes their places.
-/

namespace BulkMemory
set_option autoImplicit false

/-- What a lexeme is. -/
inductive Kind where
  | leftParen
  | rightParen
  /-- An instruction or field name such as `module`. -/
  | keyword
  /-- A name that begins with a dollar sign. -/
  | id
  | number
  | string
  /-- Any other run of characters. -/
  | reserved
  /-- From two semicolons to the end of the line, which is not part of it. -/
  | lineComment
  /-- Between `(;` and `;)`, perhaps with others inside. -/
  | blockComment
  | blank
deriving DecidableEq, Repr, Inhabited

namespace Kind

/-- The phrase for a kind in messages. -/
def describe : Kind → String
  | leftParen => "'('"
  | rightParen => "')'"
  | keyword => "keyword"
  | id => "identifier"
  | number => "number"
  | string => "string"
  | reserved => "reserved token"
  | lineComment => "line comment"
  | blockComment => "block comment"
  | blank => "whitespace"

/-- Blanks and comments carry no meaning. -/
def isTrivia : Kind → Bool
  | lineComment | blockComment | blank => true
  | _ => false

end Kind

/-- A piece of module text and its kind. -/
structure Lexeme where
  kind : Kind
  text : String
deriving DecidableEq, Repr, Inhabited

namespace Lexeme

/-- The number of bytes of a lexeme. -/
def size (l : Lexeme) : Nat := byteSize l.text.toList

/-- Whether a lexeme carries no meaning. -/
def isTrivia (l : Lexeme) : Bool := l.kind.isTrivia

/-- Whether a lexeme is the given keyword. -/
def isKeyword (l : Lexeme) (word : String) : Bool :=
  l.kind == .keyword && l.text == word

/-- The digits of a number, without the mark of a hexadecimal one. -/
def digits : List Char → List Char
  | '0' :: 'x' :: ds | '0' :: 'X' :: ds => ds
  | ds => ds

/-- Whether digits, which underscores may separate, are all zero. -/
def digitsAreZero (ds : List Char) : Bool :=
  ds.all (fun c => c == '0' || c == '_') && ds.contains '0'

/-- Whether a lexeme is a number whose value is zero. -/
def isZero (l : Lexeme) : Bool :=
  l.kind == .number && digitsAreZero (digits l.text.toList)

end Lexeme

/-- A lexeme at its place in a source: the offset of its first byte and its position. -/
structure Token extends Lexeme where
  start : Nat
  position : Position
deriving DecidableEq, Repr, Inhabited

namespace Token

/-- The offset behind the last byte of a token. -/
def stop (t : Token) : Nat := t.start + t.size

/-- The bytes of a token. -/
def span (t : Token) : Span := ⟨t.start, t.stop⟩

/-- Give consecutive lexemes their places, the first one at the given place. -/
def placeAll (start : Nat) (position : Position) : List Lexeme → List Token
  | [] => []
  | l :: ls =>
    { toLexeme := l, start, position } ::
      placeAll (start + l.size) (position.after l.text.toList) ls

/-- The tokens that carry meaning. -/
def significant (ts : List Token) : List Token :=
  ts.filter fun t => !t.isTrivia

/-- The lexemes of tokens that carry meaning: what two writings of one module share. -/
def meaning (ts : List Token) : List Lexeme :=
  (significant ts).map Token.toLexeme

@[simp] theorem map_toLexeme_placeAll (start : Nat) (position : Position) (ls : List Lexeme) :
    (placeAll start position ls).map Token.toLexeme = ls := by
  induction ls generalizing start position with
  | nil => rfl
  | cons l ls ih => simp [placeAll, ih]

end Token

end BulkMemory
