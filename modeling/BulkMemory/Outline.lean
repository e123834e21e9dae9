/-!
# Indented lines

An `Outline` is a tree of lines; nesting stands for one more level of indentation. A `Writer` lays
outlines out as text. It begins a new line only when it has written something before, so an empty
line at the very beginning leaves no trace.
-/

namespace BulkMemory
set_option autoImplicit false

/-- A line, or a group of lines one level deeper. -/
inductive Outline where
  | line (text : String)
  | nested (items : List Outline)
deriving Repr, Inhabited

/-- The text written so far, and the indentation of the next line. -/
structure Writer where
  indent : String
  depth : Nat
  text : String := ""
deriving DecidableEq, Repr, Inhabited

namespace Writer

/-- What stands before a line of the given depth. -/
def margin (indent : String) (depth : Nat) : String :=
  String.join (List.replicate depth indent)

/-- Write one line. -/
def line (w : Writer) (text : String) : Writer :=
  let separator := if w.text.isEmpty then "" else "\n"
  { w with text := w.text ++ separator ++ margin w.indent w.depth ++ text }

/-- Indent the lines to come by one more level. -/
def deeper (w : Writer) : Writer := { w with depth := w.depth + 1 }

/-- Indent the lines to come by one level less. -/
def shallower (w : Writer) : Writer := { w with depth := w.depth - 1 }

end Writer

namespace Outline

mutual

/-- Write an outline. -/
def write (w : Writer) : Outline → Writer
  | line text => w.line text
  | nested items => (writeAll w.deeper items).shallower

/-- Write several outlines, one after the other. -/
def writeAll (w : Writer) : List Outline → Writer
  | [] => w
  | item :: items => writeAll (write w item) items

end

/-- Lay outlines out as text, the first level being `depth`. -/
def render (items : List Outline) (indent : String) (depth : Nat) : String :=
  (writeAll { indent, depth } items).text

mutual

/-- The lines of an outline with their depths, the outline itself standing at `depth`. -/
def lines (depth : Nat) : Outline → List (Nat × String)
  | line text => [(depth, text)]
  | nested items => linesAll (depth + 1) items

/-- The lines of several outlines with their depths. -/
def linesAll (depth : Nat) : List Outline → List (Nat × String)
  | [] => []
  | item :: items => lines depth item ++ linesAll depth items

end

end Outline

end BulkMemory
