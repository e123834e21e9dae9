import BulkMemory.Text.Numeral
import BulkMemory.Text.Reader
import BulkMemory.Toml.Value

/-!
# TOML strings, numbers and times

Readers for the values that hold no others. Strings come in four forms: on one line or on several,
each with or without escapes. A line break in a string counts as one line feed however it is
written.
-/

namespace BulkMemory.Toml
set_option autoImplicit false

open Reader

/-- Blanks inside a line. -/
def isInlineBlank (c : Char) : Bool := c == ' ' || c == '\t'

/-- Skip blanks inside a line. -/
def skipBlanks : Reader Char Unit := do
  let _ ← Reader.takeWhile isInlineBlank

/-- A line break, in either of its two writings. -/
def lineBreak : Reader Char Unit := word "\n" <|> word "\r\n"

/-- Whether a character may stand in a line: no control character but the tab may. -/
def isLineChar (c : Char) : Bool :=
  c == '\t' || (0x20 ≤ c.toNat && c.toNat != 0x7F)

/-- A comment, without the line break. -/
def comment : Reader Char Unit := do
  let _ ← char '#'
  let _ ← Reader.takeWhile isLineChar

section Strings

/-- The character with the given code point, unless that is no scalar value. -/
def scalar? (code : Nat) : Option Char :=
  if code.isValidChar then some (Char.ofNat code) else none

/-- A character by its code point in hexadecimal digits. -/
def codePoint (count : Nat) : Reader Char Char :=
  convert (times (satisfy isHexDigit) count) fun ds => scalar? (numeralValue 16 ds)

/-- What stands for a character after a backslash. -/
def simpleEscape? : Char → Option Char
  | 'b' => some '\x08'
  | 't' => some '\t'
  | 'n' => some '\n'
  | 'f' => some '\x0c'
  | 'r' => some '\r'
  | '"' => some '"'
  | '\\' => some '\\'
  | _ => none

/-- An escaped character. -/
def escaped : Reader Char Char := do
  let _ ← char '\\'
  let c ← satisfy fun _ => true
  match c with
  | 'u' => codePoint 4
  | 'U' => codePoint 8
  | c =>
    match simpleEscape? c with
    | some d => return d
    | none => failure

/-- A character that stands for itself in a string with the given quote. -/
def plain (quote : Char) : Reader Char Char :=
  satisfy fun c => isLineChar c && c != quote && (quote != '"' || c != '\\')

/-- A string on one line. -/
def lineString (quote : Char) (item : Reader Char Char) : Reader Char String := do
  let _ ← char quote
  let cs ← many item
  let _ ← char quote
  return String.ofList cs

/-- A run of quotes, whose length passes a test. -/
def quotes (quote : Char) (test : Nat → Bool) : Reader Char Nat :=
  check (List.length <$> Reader.takeWhile (· == quote)) test

/-- A backslash at the end of a line takes away the line break and all blanks and line breaks
behind it. -/
def joinedLines : Reader Char Unit := do
  let _ ← char '\\'
  skipBlanks
  lineBreak
  let _ ← many ((do let _ ← satisfy isInlineBlank) <|> lineBreak)

/-- A string on several lines. Up to two quotes may stand anywhere in it, also before its end, and a
line break at its beginning is left out. -/
def blockString (quote : Char) (item : Reader Char (List Char)) : Reader Char String := do
  let _ ← times (char quote) 3
  let _ ← optional lineBreak
  let inner := do
    let count ← quotes quote fun n => 0 < n && n < 3
    return List.replicate count quote
  let break_ := do
    lineBreak
    return ['\n']
  let parts ← many (item <|> break_ <|> inner)
  let count ← quotes quote fun n => 3 ≤ n && n ≤ 5
  return String.ofList (parts.flatten ++ List.replicate (count - 3) quote)

/-- A string on one line, which may be a key too. -/
def keyString : Reader Char String :=
  lineString '"' (plain '"' <|> escaped) <|> lineString '\'' (plain '\'')

/-- A string of any of the four forms. -/
def string : Reader Char String :=
  let single (p : Reader Char Char) : Reader Char (List Char) := (fun c => [c]) <$> p
  let joined : Reader Char (List Char) := (fun _ => []) <$> joinedLines
  blockString '"' (single (plain '"') <|> single escaped <|> joined)
    <|> blockString '\'' (single (plain '\''))
    <|> keyString

end Strings

section Numbers

/-- Digits, between which single underscores may stand. -/
def digitRun (test : Char → Bool) : Reader Char (List Char) := do
  let first ← satisfy test
  let more ← many do
    let _ ← optional (char '_')
    satisfy test
  return first :: more

/-- Decimal digits that do not begin with a needless zero. -/
def decimalRun : Reader Char (List Char) :=
  check (digitRun Char.isDigit) fun ds => ds.length == 1 || ds.head? != some '0'

/-- Whether a number has a minus sign. -/
def sign : Reader Char Bool := do
  let c ← optional (satisfy fun c => c == '+' || c == '-')
  return c == some '-'

/-- A number in a base other than ten. -/
def radixInteger (mark : String) (base : Nat) (test : Char → Bool) : Reader Char Int := do
  word mark
  return Int.ofNat (numeralValue base (← digitRun test))

/-- A number in base ten. -/
def decimalInteger : Reader Char Int := do
  let negative ← sign
  let n := Int.ofNat (numeralValue 10 (← decimalRun))
  return if negative then -n else n

/-- A whole number of 64 bits. -/
def integer : Reader Char Int :=
  check
    (radixInteger "0x" 16 isHexDigit
      <|> radixInteger "0o" 8 (fun c => '0' ≤ c && c ≤ '7')
      <|> radixInteger "0b" 2 (fun c => c == '0' || c == '1')
      <|> decimalInteger)
    (isBetweenPowers 63 63)

/-- A number with a fraction or an exponent. -/
def decimalFraction : Reader Char Unit := do
  let negative ← sign
  let whole ← decimalRun
  let exponent : Reader Char Int := do
    let _ ← satisfy fun c => c == 'e' || c == 'E'
    let down ← sign
    let n := Int.ofNat (numeralValue 10 (← digitRun Char.isDigit))
    return if down then -n else n
  let fraction : Reader Char (List Char × Int) := do
    let _ ← char '.'
    let ds ← digitRun Char.isDigit
    let e ← optional exponent
    return (ds, e.getD 0)
  let (ds, e) ← fraction <|> (fun e => ([], e)) <$> exponent
  if !negative && scaledReaches 10 doubleBound (numeralValue 10 (whole ++ ds)) (e - ds.length) then
    failure

/-- A number with a fraction or an exponent, infinity, or no number. -/
def float : Reader Char Unit :=
  decimalFraction <|> do
    let _ ← sign
    word "inf" <|> word "nan"

end Numbers

section Times

/-- A number of exactly the given count of digits, within bounds. -/
def digitsIn (count lo hi : Nat) : Reader Char Nat :=
  check (numeralValue 10 <$> times (satisfy Char.isDigit) count) fun n => lo ≤ n && n ≤ hi

/-- The number of days of a month. -/
def daysIn (year month : Nat) : Nat :=
  if month == 2 then
    if year % 4 == 0 && (year % 100 != 0 || year % 400 == 0) then 29 else 28
  else if month == 4 || month == 6 || month == 9 || month == 11 then 30
  else 31

/-- A date of the calendar. -/
def date : Reader Char Unit := do
  let year ← digitsIn 4 0 9999
  let _ ← char '-'
  let month ← digitsIn 2 1 12
  let _ ← char '-'
  let _ ← digitsIn 2 1 (daysIn year month)

/-- A time of day; a minute may have a leap second. -/
def clock : Reader Char Unit := do
  let _ ← digitsIn 2 0 23
  let _ ← char ':'
  let _ ← digitsIn 2 0 59
  let _ ← char ':'
  let _ ← digitsIn 2 0 60
  let _ ← optional do
    let _ ← char '.'
    let _ ← satisfy Char.isDigit
    Reader.takeWhile Char.isDigit

/-- A distance from universal time. -/
def zone : Reader Char Unit :=
  (do let _ ← satisfy fun c => c == 'Z' || c == 'z') <|> do
    let _ ← satisfy fun c => c == '+' || c == '-'
    let _ ← digitsIn 2 0 23
    let _ ← char ':'
    let _ ← digitsIn 2 0 59

/-- A date, a time of day, or both with or without a zone. -/
def time : Reader Char Unit :=
  (do
    date
    let _ ← optional do
      let _ ← satisfy fun c => c == 'T' || c == 't' || c == ' '
      clock
      optional zone) <|> clock

end Times

/-- A value that holds no others. -/
def scalar : Reader Char Value :=
  (Value.string <$> string)
    <|> ((fun _ => Value.boolean true) <$> word "true")
    <|> ((fun _ => Value.boolean false) <$> word "false")
    <|> (Value.time <$> (String.ofList <$> taken time))
    <|> (Value.float <$> (String.ofList <$> taken float))
    <|> (Value.integer <$> integer)

end BulkMemory.Toml
