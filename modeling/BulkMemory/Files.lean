import BulkMemory.Path

/-!
# Files and directories

`Files` is a finite tree of directories without links, as a map from places to what stands there,
together with the directory in which the program works.
`Files.locate` follows a path through it, and `read`, `write` and `createDirectories` say what
becomes of the tree. `node?_put` is the law of the map: a change shows at its own place only.
-/

namespace BulkMemory
set_option autoImplicit false

/-- Why a file could not be read or written. -/
inductive FileError where
  | notFound
  /-- There is something in the place already. -/
  | alreadyThere
  | notDirectory
  | isDirectory
  | nameTooLong
  /-- The bytes of the file are no UTF-8. -/
  | notText
  | other (reason : String)
deriving DecidableEq, Repr, Inhabited

/-- The wording of a file error. -/
def FileError.message : FileError → String
  | notFound => "No such file or directory (os error 2)"
  | alreadyThere => "File exists (os error 17)"
  | notDirectory => "Not a directory (os error 20)"
  | isDirectory => "Is a directory (os error 21)"
  | nameTooLong => "File name too long (os error 36)"
  | notText => "stream did not contain valid UTF-8"
  | other reason => reason

/-- A place in a tree of directories: the names on the way down from its top. -/
abbrev Location := List String

/-- What stands in a place. -/
inductive Node where
  | file (bytes : ByteArray)
  | directory
deriving Inhabited

/-- Whether a directory stands in a place. -/
def Node.isDirectory : Node → Bool
  | directory => true
  | file _ => false

/-- A tree of directories below a top directory, which is always there. -/
structure Files where
  entries : List (Location × Node) := []
  /-- The directory in which paths begin that do not begin at the top. -/
  home : Location := []
deriving Inhabited

namespace Files

/-- What stands in a place, if anything. -/
def node? (files : Files) : Location → Option Node
  | [] => some .directory
  | place => files.entries.lookup place

/-- Put something in a place instead of what stood there. -/
def put (files : Files) (place : Location) (node : Node) : Files :=
  { files with entries := (place, node) :: files.entries.filter fun e => e.1 != place }

theorem lookup_filter_ne (entries : List (Location × Node)) {place other : Location}
    (h : other ≠ place) :
    (entries.filter fun e => e.1 != place).lookup other = entries.lookup other := by
  induction entries with
  | nil => rfl
  | cons e es ih =>
    obtain ⟨p, n⟩ := e
    by_cases hp : p = place
    · have hother : (other == p) = false := by simpa [hp] using h
      simp only [hp, bne_self_eq_false, List.filter_cons_of_neg, Bool.false_eq_true,
        not_false_eq_true, List.lookup_cons, ih]
      rw [← hp, hother]
    · simp [List.lookup_cons, ih, hp]

/-- A change shows at its own place only. -/
theorem node?_put (files : Files) (place other : Location) (node : Node) (hplace : place ≠ []) :
    (files.put place node).node? other =
      if other = place then some node else files.node? other := by
  cases other with
  | nil => simp [node?, Ne.symm hplace]
  | cons name names =>
    by_cases h : name :: names = place
    · simp [node?, put, h]
    · have hother : (name :: names == place) = false := by simpa using h
      simp [node?, put, List.lookup_cons, h, hother, lookup_filter_ne files.entries h]

/-- The number of bytes that a name may have. -/
def nameLimit : Nat := 255

/-- The number of bytes that a path must stay below. -/
def pathLimit : Nat := 4096

/-- The place of a name in a directory. -/
def child (here : Location) (name : String) : Except FileError Location :=
  if nameLimit < name.utf8ByteSize then .error .nameTooLong else .ok (here ++ [name])

/-- The directory that a segment of a path leads to. The top directory lies in itself. -/
def enter (files : Files) (here : Location) (segment : String) : Except FileError Location :=
  if segment = "" ∨ segment = "." then .ok here
  else if segment = ".." then .ok here.dropLast
  else do
    let place ← child here segment
    match files.node? place with
    | none => throw .notFound
    | some (.file _) => throw .notDirectory
    | some .directory => return place

/-- The directory in which a path begins. -/
def start (files : Files) (p : Path) : Location := if p.isAbsolute then [] else files.home

/-- Where a path ends. -/
inductive Target where
  /-- In a directory that is there: the top directory, or one that the path names by dots. -/
  | directory
  /-- In a place of a directory, whether something stands there or not. -/
  | entry (place : Location) (slash : Bool)
deriving DecidableEq, Repr

/-- Follow a path. All segments but the last must lead to directories. -/
def locate (files : Files) (p : Path) : Except FileError Target :=
  if pathLimit ≤ p.text.utf8ByteSize then .error .nameTooLong
  else
    match p.trimmed.getLast? with
    | none => if p.isAbsolute then .ok .directory else .error .notFound
    | some last => do
      let here ← p.trimmed.dropLast.foldlM files.enter (files.start p)
      if last = "." ∨ last = ".." then return .directory
      else return .entry (← child here last) (p.trimmed.length < p.segments.length)

/-- The text of the file at a path. -/
def read (files : Files) (p : Path) : Except FileError String := do
  match ← files.locate p with
  | .directory => throw .isDirectory
  | .entry place slash =>
    match files.node? place with
    | none => throw .notFound
    | some .directory => throw .isDirectory
    | some (.file bytes) =>
      if slash then throw .notDirectory
      else
        match String.fromUTF8? bytes with
        | none => throw .notText
        | some text => return text

/-- Write a text to the file at a path, which need not be there. -/
def write (files : Files) (p : Path) (text : String) : Except FileError Files := do
  match ← files.locate p with
  | .directory => throw .isDirectory
  | .entry place slash =>
    if slash || (files.node? place).any Node.isDirectory then throw .isDirectory
    else return files.put place (.file text.toUTF8)

/-- Make a directory at a path in a directory that is there. A directory that stands there already
will do. -/
def createDirectory (files : Files) (p : Path) : Except FileError Files := do
  match ← files.locate p with
  | .directory => return files
  | .entry place _ =>
    match files.node? place with
    | none => return files.put place .directory
    | some .directory => return files
    | some (.file _) => throw .alreadyThere

/-- What a change answers, and the files behind it: as they were if the change fails. -/
def changed (files : Files) : Except FileError Files → Except FileError Unit × Files
  | .ok made => (.ok (), made)
  | .error e => (.error e, files)

/-- Make the first of the given directories, after the others where it needs them. Those that could
be made stay when one cannot. -/
def createLineage (files : Files) : List Path → Except FileError Unit × Files
  | [] => (.ok (), files)
  | p :: above =>
    match files.createDirectory p with
    | .error .notFound =>
      match files.createLineage above with
      | (.ok (), made) => made.changed (made.createDirectory p)
      | failed => failed
    | made => files.changed made

/-- Make the directory at a path and those on the way to it where they are missing. -/
def createDirectories (files : Files) (p : Path) : Except FileError Unit × Files :=
  files.createLineage p.lineage

end Files

end BulkMemory
