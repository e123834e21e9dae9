/-!
# Numerals

The value of a run of digits in a base up to sixteen, the most significant digit first, and the
comparison of a number in scientific writing with a bound.
-/

namespace BulkMemory
set_option autoImplicit false

/-- The value of a digit; letters stand for ten to fifteen. -/
def digitValue (c : Char) : Nat :=
  if c.isDigit then c.toNat - '0'.toNat
  else if c.isLower then c.toNat - 'a'.toNat + 10
  else c.toNat - 'A'.toNat + 10

/-- Whether a character is a hexadecimal digit. -/
def isHexDigit (c : Char) : Bool :=
  c.isDigit || ('a' ≤ c && c ≤ 'f') || ('A' ≤ c && c ≤ 'F')

/-- The value of digits in a base. -/
def numeralValue (base : Nat) (ds : List Char) : Nat :=
  ds.foldl (fun n d => n * base + digitValue d) 0

/-- Whether a number has at most so many binary digits. -/
def hasBits (bits n : Nat) : Bool := n < 1 <<< bits

/-- Whether a number is at least `-2 ^ below` and less than `2 ^ above`. -/
def isBetweenPowers (below above : Nat) (z : Int) : Bool :=
  -Int.ofNat (1 <<< below) ≤ z && z < Int.ofNat (1 <<< above)

/-- Whether `m * base ^ e` is at least `bound`, for bounds below `2 ^ 1100`. Exponents of a size
that decides the question by itself are not raised to. -/
def scaledReaches (base bound m : Nat) (e : Int) : Bool :=
  if m == 0 then bound == 0
  else if 1100 < e then true
  else if 0 ≤ e then bound ≤ m * Nat.pow base e.toNat
  else if m.log2 + 1 < (-e).toNat then bound == 0
  else bound * Nat.pow base (-e).toNat ≤ m

/-- The least number that rounds to infinity in double precision: half a step above the largest
finite one. -/
def doubleBound : Nat := (1 <<< 54 - 1) <<< 970

/-- The least number that rounds to infinity in single precision. -/
def singleBound : Nat := (1 <<< 25 - 1) <<< 103

end BulkMemory
