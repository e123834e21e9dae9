import BulkMemory.Text.Unprintable

/-!
# Quoted text

A text between quotation marks, so that its ends and every character of it show. A quotation mark
and a backslash follow a backslash, four controls have a letter, and other characters that do not
show are written by number.
-/

namespace BulkMemory
set_option autoImplicit false

/-- How a character is written in quoted text. -/
def quotedChar (c : Char) : List Char :=
  match c with
  | '\x00' => ['\\', '0']
  | '\t' => ['\\', 't']
  | '\n' => ['\\', 'n']
  | '\r' => ['\\', 'r']
  | '"' => ['\\', '"']
  | '\\' => ['\\', '\\']
  | _ =>
    if isUnprintable c then
      ['\\', 'u', '\x7b'] ++ Nat.toDigits 16 c.toNat ++ ['\x7d']
    else [c]

/-- A text in quotation marks. -/
def quoted (text : String) : String :=
  String.ofList (['"'] ++ text.toList.flatMap quotedChar ++ ['"'])

end BulkMemory
