/-!
# Searching a text for a word

`occursIn` looks for a word at every place of a text; `occursIn_iff` says that this is the relation
"is a part of" on lists.
-/

namespace BulkMemory
set_option autoImplicit false

/-- Whether a word occurs somewhere in a text. -/
def occursIn (word : List Char) : List Char → Bool
  | [] => word.isEmpty
  | c :: cs => word.isPrefixOf (c :: cs) || occursIn word cs

theorem occursIn_iff {word cs : List Char} : occursIn word cs = true ↔ word <:+: cs := by
  induction cs with
  | nil => simp [occursIn]
  | cons c cs ih => simp [occursIn, ih, List.infix_cons_iff]

end BulkMemory
