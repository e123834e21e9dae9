import BulkMemory.Text.Quoted

/-!
# Paths

A path is a text of segments with slashes between them. `Path.lineage` lists a path and the
directories on the way to it as texts, the longest first, without looking at any file.
-/

namespace BulkMemory
set_option autoImplicit false

/-- A path as it was given. -/
structure Path where
  text : String
deriving DecidableEq, Repr, Inhabited

namespace Path

/-- The texts between the slashes of a text. -/
def segmentsOf : List Char → List (List Char)
  | [] => [[]]
  | c :: cs =>
    match segmentsOf cs with
    | [] => [[c]]
    | s :: rest => if c = '/' then [] :: s :: rest else (c :: s) :: rest

/-- The texts between the slashes of a path, some of which may be empty. -/
def segments (p : Path) : List String :=
  (segmentsOf p.text.toList).map String.ofList

/-- The segments of a path without empty ones at its end. -/
def trimmed (p : Path) : List String := (p.segments.reverse.dropWhile String.isEmpty).reverse

/-- Whether a path begins at the top of all directories. -/
def isAbsolute (p : Path) : Bool := p.text.toList.head? == some '/'

/-- The path with the given segments. -/
def ofSegments (segments : List String) : Path := ⟨"/".intercalate segments⟩

/-- Whether a path ends where it ends without its last segment: the segment is empty, or it is one
dot with others before it. -/
def addsNothing (segment : String) (before : List String) : Bool :=
  segment == "" || (segment == "." && !before.isEmpty)

/-- The fronts of a list of segments that end in a segment that matters, the longest first; all
lists are reversed. -/
def fronts : List String → List (List String)
  | [] => []
  | s :: before =>
    if addsNothing s before then fronts before else (s :: before) :: fronts before

/-- A path and the directories on the way to it, the longest first. -/
def lineage (p : Path) : List Path :=
  (fronts p.segments.reverse).map fun front => ofSegments front.reverse

/-- The directory that a path lies in, unless it is the one where the path begins. -/
def parent? (p : Path) : Option Path := p.lineage.tail.head?

/-- A path in quotation marks. -/
def quoted (p : Path) : String := BulkMemory.quoted p.text

end Path

end BulkMemory
