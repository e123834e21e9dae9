import BulkMemory.Config
import BulkMemory.Text.Numeral

/-!
# Literals of module text

Numbers, strings and the alphabet of module text. A number in the text may be too large for its
type; `fitsBits` and `isFloatLiteral` say when it is not.
-/

namespace BulkMemory.Module
set_option autoImplicit false

section Alphabet

/-- Characters that change the direction of the text around them. They are refused since they can
make a module look different from what it is. -/
def confusingChars : List Char :=
  ['\u202a', '\u202b', '\u202d', '\u202e', '\u2066', '\u2067', '\u2068', '\u206c', '\u2069']

/-- The blanks of module text. -/
def isTextBlank (c : Char) : Bool :=
  c == ' ' || c == '\t' || c == '\n' || c == '\r'

end Alphabet

section Numbers

/-- Split a sign off a text; true stands for minus. -/
def splitSign : List Char → Bool × List Char
  | '-' :: cs => (true, cs)
  | '+' :: cs => (false, cs)
  | cs => (false, cs)

/-- The digits of a run, between which single underscores may stand. -/
def separatedDigits? (test : Char → Bool) : List Char → Option (List Char)
  | [] => none
  | [c] => if test c then some [c] else none
  | c :: '_' :: cs => if test c then (separatedDigits? test cs).map (c :: ·) else none
  | c :: cs => if test c then (separatedDigits? test cs).map (c :: ·) else none

/-- The value of a number without a sign. -/
def natural? : List Char → Option Nat
  | '0' :: 'x' :: cs => (separatedDigits? isHexDigit cs).map (numeralValue 16)
  | cs => (separatedDigits? Char.isDigit cs).map (numeralValue 10)

/-- The value of a whole number. -/
def whole? (cs : List Char) : Option Int :=
  let (negative, digits) := splitSign cs
  (natural? digits).map fun n => if negative then -Int.ofNat n else Int.ofNat n

/-- Whether a number can be written in so many bits, with or without a sign. -/
def fitsBits (bits : Nat) (z : Int) : Bool :=
  isBetweenPowers (bits - 1) bits z

/-- The parts of a number with a fraction and an exponent, in the given base: the digits before and
behind the point, and the exponent. -/
def fractionParts? (test : Char → Bool) (marks : List Char) (cs : List Char) :
    Option (List Char × List Char × Int) := do
  let mantissa := cs.takeWhile fun c => !marks.contains c
  let exponent ←
    match cs.dropWhile fun c => !marks.contains c with
    | [] => some 0
    | _ :: digits =>
      let (negative, digits) := splitSign digits
      (separatedDigits? Char.isDigit digits).map fun ds =>
        let n := Int.ofNat (numeralValue 10 ds)
        if negative then -n else n
  let before ← separatedDigits? test (mantissa.takeWhile (· != '.'))
  let behind ←
    match mantissa.dropWhile (· != '.') with
    | [] | ['.'] => some []
    | _ :: digits => separatedDigits? test digits
  return (before, behind, exponent)

/-- Whether a text is a number with a fraction whose absolute value is below a bound. -/
def isFraction (bound : Nat) : List Char → Bool
  | '0' :: 'x' :: cs =>
    match fractionParts? isHexDigit ['p', 'P'] cs with
    | some (before, behind, e) =>
      !scaledReaches 2 bound (numeralValue 16 (before ++ behind)) (e - 4 * behind.length)
    | none => false
  | cs =>
    match fractionParts? Char.isDigit ['e', 'E'] cs with
    | some (before, behind, e) =>
      !scaledReaches 10 bound (numeralValue 10 (before ++ behind)) (e - behind.length)
    | none => false

/-- Whether a text is a floating point number with a significand of so many bits: a number below the
bound, infinity, or no number with a payload that fits. -/
def isFloatLiteral (bound significandBits : Nat) (cs : List Char) : Bool :=
  let (_, digits) := splitSign cs
  digits == "inf".toList || digits == "nan".toList || isFraction bound digits ||
    match digits with
    | 'n' :: 'a' :: 'n' :: ':' :: '0' :: 'x' :: payload =>
      match separatedDigits? isHexDigit payload with
      | some ds => let n := numeralValue 16 ds; 0 < n && hasBits significandBits n
      | none => false
    | _ => false

end Numbers

section Strings

/-- The bytes of a character in UTF-8. -/
def utf8Bytes (c : Char) : List UInt8 := (String.singleton c).toUTF8.toList

/-- The bytes of a string literal behind its opening quote. -/
def stringTail? : List Char → Option (List UInt8)
  | ['"'] => some []
  | '\\' :: 'u' :: '\x7b' :: cs => unicodeTail? [] cs
  | '\\' :: a :: cs =>
    match a with
    | 't' => (stringTail? cs).map (0x09 :: ·)
    | 'n' => (stringTail? cs).map (0x0A :: ·)
    | 'r' => (stringTail? cs).map (0x0D :: ·)
    | '"' => (stringTail? cs).map (0x22 :: ·)
    | '\'' => (stringTail? cs).map (0x27 :: ·)
    | '\\' => (stringTail? cs).map (0x5C :: ·)
    | _ =>
      match cs with
      | b :: cs =>
        if isHexDigit a && isHexDigit b then
          (stringTail? cs).map ((numeralValue 16 [a, b]).toUInt8 :: ·)
        else none
      | [] => none
  | c :: cs =>
    if c == '"' || c.toNat < 0x20 || c.toNat == 0x7F || confusingChars.contains c then none
    else (stringTail? cs).map (utf8Bytes c ++ ·)
  | [] => none
where
  /-- The rest behind the opening brace of a code point, of which some digits are known. -/
  unicodeTail? (digits : List Char) : List Char → Option (List UInt8)
    | '\x7d' :: cs => do
      let ds ← separatedDigits? isHexDigit digits
      let code := numeralValue 16 ds
      if code.isValidChar then (stringTail? cs).map (utf8Bytes (Char.ofNat code) ++ ·) else none
    | c :: cs => unicodeTail? (digits ++ [c]) cs
    | [] => none

/-- The bytes of a string literal. -/
def stringBytes? (text : String) : Option (List UInt8) :=
  match text.toList with
  | '"' :: cs => stringTail? cs
  | _ => none

/-- A string literal that is a name, that is, whose bytes are UTF-8. -/
def name? (text : String) : Option String := do
  let bytes ← stringBytes? text
  String.fromUTF8? ⟨bytes.toArray⟩

end Strings

end BulkMemory.Module
