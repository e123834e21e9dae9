/-!
# How alike two words are

A number from zero to one. Characters of the two words are partners when they are equal and stand
about as far from the front, and the number is the mean of three shares: the partners in the first
word, the partners in the second, and the partners that come in the same order. `closest?` picks the
word of a list that is most like a given one.
-/

namespace BulkMemory.Similarity
set_option autoImplicit false

/-- How far from its own place a character may have its partner. -/
def reach (a b : List Char) : Nat := max a.length b.length / 2 - 1

/-- The first place of a word that may be the partner of the character `c` at place `i`. -/
def partner? (word : List Char) (reach : Nat) (taken : List Nat) (c : Char) (i : Nat) :
    Option Nat :=
  (word.zipIdx.find? fun (d, j) =>
    d == c && i ≤ j + reach && j ≤ i + reach && !taken.contains j).map Prod.snd

/-- The characters of the first word that have partners in the second, and the places of these; each
character takes the first partner that is left. -/
def partners (a b : List Char) : List Char × List Nat :=
  a.zipIdx.foldl (fun (found, taken) (c, i) =>
    match partner? b (reach a b) taken c i with
    | none => (found, taken)
    | some j => (found ++ [c], j :: taken)) ([], [])

/-- How alike two words are. -/
def measure (a b : List Char) : Rat :=
  let (found, taken) := partners a b
  let others := (b.zipIdx.filter fun (_, j) => taken.contains j).map Prod.fst
  let displaced := (found.zip others).countP fun (c, d) => c != d
  let share (n total : Nat) : Rat := if total = 0 then 0 else (n : Rat) / (total : Rat)
  (share found.length a.length + share found.length b.length +
    share (found.length - displaced / 2) found.length) / 3

/-- The word that is most like a given one, if one is more than seven tenths like it; of equals the
last. -/
def closest? (word : String) (candidates : List String) : Option String :=
  let measured := candidates.map fun w => (measure word.toList w.toList, w)
  let close := measured.filter fun (m, _) => (7 : Rat) / 10 < m
  (close.mergeSort fun (m, _) (n, _) => m ≤ n).getLast?.map Prod.snd

end BulkMemory.Similarity
