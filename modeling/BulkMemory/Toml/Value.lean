/-!
# TOML values

A `Value` is what a key of a TOML document stands for. A table remembers how it came to be, since
that decides whether later lines may add to it. Numbers with a fraction and points in time are kept
as they are written.
-/

namespace BulkMemory.Toml
set_option autoImplicit false

/-- How a table came to be. -/
inductive Origin where
  /-- By a header of its own; the document itself counts as such a table. -/
  | header
  /-- As a part of the path of a header. -/
  | implied
  /-- As a part of a dotted key. -/
  | dotted
  /-- As a value in braces. -/
  | braces
deriving DecidableEq, Repr, Inhabited

/-- A value of a TOML document. -/
inductive Value where
  | string (text : String)
  | integer (value : Int)
  | float (literal : String)
  | boolean (value : Bool)
  | time (literal : String)
  | array (items : List Value)
  | table (origin : Origin) (entries : List (String × Value))
  /-- An array that grows by one table with each of its headers. -/
  | tables (rows : List (List (String × Value)))
deriving Repr, Inhabited

/-- The keys of a table with their values, in the order of definition. -/
abbrev Entries := List (String × Value)

/-- A table together with how it came to be. -/
abbrev Section := Origin × Entries

namespace Entries

/-- Put a value in the place of the one that a key has. -/
def replace (key : String) (value : Value) (entries : Entries) : Entries :=
  entries.map fun entry => if entry.1 == key then (key, value) else entry

/-- Change the table at the end of a path, and make the tables on the way that are missing. Tables
made for a dotted key may go through tables made for another one, but not through one that has a
header. -/
def update (made : Origin) (change : Section → Option Section) :
    List String → Section → Option Section
  | [], here => change here
  | key :: path, (origin, entries) =>
    match entries.lookup key with
    | none => do
      let (origin', inner) ← update made change path (made, [])
      return (origin, entries ++ [(key, .table origin' inner)])
    | some (.table origin' inner) =>
      if origin' = .braces ∨ (made = .dotted ∧ origin' = .header) then none
      else do
        let (origin'', inner') ← update made change path (origin', inner)
        return (origin, replace key (.table origin'' inner') entries)
    | some (.tables rows) =>
      match rows.getLast? with
      | none => none
      | some last => do
        let (_, last') ← update made change path (.header, last)
        return (origin, replace key (.tables (rows.dropLast ++ [last'])) entries)
    | some _ => none

/-- Give a key a value in the table that the rest of a dotted key leads to. The key must be new, and
a dotted key may only add to tables that such keys made. -/
def define (prefixKeys : List String) (key : String) (value : Value) :
    Section → Option Section :=
  update .dotted
    (fun (origin, entries) =>
      if (origin == .dotted) == prefixKeys.isEmpty || (entries.lookup key).isSome then none
      else some (origin, entries ++ [(key, value)]))
    prefixKeys

/-- Open the table of a header. It must be new, or known only from the paths of other headers. -/
def openTable (key : String) : Section → Option Section
  | (origin, entries) =>
    match entries.lookup key with
    | none => some (origin, entries ++ [(key, .table .header [])])
    | some (.table .implied inner) => some (origin, replace key (.table .header inner) entries)
    | some _ => none

/-- Open one more row of an array of tables. -/
def openRow (key : String) : Section → Option Section
  | (origin, entries) =>
    match entries.lookup key with
    | none => some (origin, entries ++ [(key, .tables [[]])])
    | some (.tables rows) => some (origin, replace key (.tables (rows ++ [[]])) entries)
    | some _ => none

end Entries

end BulkMemory.Toml
