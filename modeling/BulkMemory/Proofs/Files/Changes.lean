import BulkMemory.Files
import BulkMemory.Proofs.Files.Paths

/-!
# What changes in a tree of directories

A path that could be followed can still be followed, to the same place, as long as directories stay
where they are (`Keeps.locate`). Making the directory of a file puts directories on the way to the
file where nothing stood and changes nothing else (`furnishes_createDirectories`), whether all of
them could be made or not. A file that has been written behind that is `Written`.
-/

namespace BulkMemory.Files
set_option autoImplicit false

variable {files before middle after made : Files} {p q : Path} {here place : Location}
  {segment text : String} {front : List String} {slash : Bool} {target : Target}

/-! ### Following a path -/

/-- Two steps come to something if the first does and the second does with it. -/
theorem bind_eq_ok_iff {ε α β : Type} {x : Except ε α} {f : α → Except ε β} {b : β} :
    (x >>= f) = .ok b ↔ ∃ a, x = .ok a ∧ f a = .ok b := by
  cases x <;> simp [bind, Except.bind]

/-- The segments that lead to a directory: those that stay, the one that leads up, and the names of
directories. -/
theorem enter_eq_ok_iff : files.enter here segment = .ok place ↔
    ((segment = "" ∨ segment = ".") ∧ here = place) ∨
    ((segment ≠ "" ∧ segment ≠ ".") ∧ segment = ".." ∧ here.dropLast = place) ∨
    ((segment ≠ "" ∧ segment ≠ "." ∧ segment ≠ "..") ∧ child here segment = .ok place ∧
      files.node? place = some .directory) := by
  unfold enter
  by_cases hstay : segment = "" ∨ segment = "."
  · rcases hstay with rfl | rfl <;> simp
  by_cases hup : segment = ".."
  · subst hup
    simp
  obtain ⟨hempty, hdot⟩ := not_or.1 hstay
  rw [if_neg hstay, if_neg hup, bind_eq_ok_iff]
  simp only [hempty, hdot, hup, or_self, false_and, and_false, ne_eq, not_false_eq_true, and_self,
    true_and, false_or]
  constructor
  · rintro ⟨inner, hchild, hfound⟩
    split at hfound
    · cases hfound
    · cases hfound
    · rename_i hnode
      cases hfound
      exact ⟨hchild, hnode⟩
  · rintro ⟨hchild, hnode⟩
    refine ⟨place, hchild, ?_⟩
    rw [hnode]
    rfl

/-- A path that leads to an entry of a directory leads there by its last segment. -/
theorem exists_of_locate_eq_ok (h : files.locate p = .ok (.entry place slash)) :
    ∃ front last here, p.trimmed = front ++ [last] ∧ (last ≠ "." ∧ last ≠ "..") ∧
      front.foldlM files.enter (files.start p) = .ok here ∧ child here last = .ok place ∧
      slash = decide (p.trimmed.length < p.segments.length) := by
  unfold locate at h
  split at h
  · cases h
  cases hlast : p.trimmed.getLast? with
  | none =>
    rw [hlast] at h
    dsimp only at h
    split at h <;> cases h
  | some last =>
    simp only [hlast] at h
    obtain ⟨here, hwalk, h⟩ := bind_eq_ok_iff.1 h
    split at h
    · cases h
    · rename_i hdots
      obtain ⟨inner, hchild, h⟩ := bind_eq_ok_iff.1 h
      cases h
      exact ⟨p.trimmed.dropLast, last, here, (List.dropLast_append_getLast? last hlast).symm,
        not_or.1 hdots, hwalk, hchild, rfl⟩

/-! ### Directories that stay -/

/-- Directories stay where they are, and so does the one in which the program works. -/
structure Keeps (before after : Files) : Prop where
  home : after.home = before.home
  directory : ∀ place, before.node? place = some .directory → after.node? place = some .directory

namespace Keeps

/-- Anything may be put where no directory stands. -/
theorem put (hplace : files.node? place ≠ some .directory) (node : Node) :
    Keeps files (files.put place node) where
  home := rfl
  directory other hother := by
    have hne : place ≠ [] := fun h => hplace (by rw [h, node?])
    rw [node?_put files place other node hne, if_neg]
    · exact hother
    · rintro rfl
      exact hplace hother

theorem start (h : Keeps before after) (p : Path) : after.start p = before.start p := by
  rw [Files.start, Files.start, h.home]

theorem enter (h : Keeps before after) (henter : before.enter here segment = .ok place) :
    after.enter here segment = .ok place := by
  rw [enter_eq_ok_iff] at henter ⊢
  exact henter.imp_right <| .imp_right fun ⟨hname, hchild, hnode⟩ =>
    ⟨hname, hchild, h.directory place hnode⟩

theorem foldlM_enter (h : Keeps before after)
    (hwalk : front.foldlM before.enter here = .ok place) :
    front.foldlM after.enter here = .ok place := by
  induction front generalizing here with
  | nil => exact hwalk
  | cons segment front ih =>
    rw [List.foldlM_cons, bind_eq_ok_iff] at hwalk ⊢
    obtain ⟨inner, henter, hrest⟩ := hwalk
    exact ⟨inner, h.enter henter, ih hrest⟩

/-- A path leads where it led. -/
theorem locate (h : Keeps before after) (hlocate : before.locate p = .ok target) :
    after.locate p = .ok target := by
  unfold Files.locate at hlocate ⊢
  split
  · rwa [if_pos ‹_›] at hlocate
  rw [if_neg ‹_›] at hlocate
  cases hlast : p.trimmed.getLast? with
  | none => simpa only [hlast] using hlocate
  | some last =>
    simp only [hlast] at hlocate ⊢
    obtain ⟨here, hwalk, hrest⟩ := bind_eq_ok_iff.1 hlocate
    rw [← h.start] at hwalk
    exact bind_eq_ok_iff.2 ⟨here, h.foldlM_enter hwalk, hrest⟩

end Keeps

/-! ### New directories -/

/-- A path passes a place if one of its fronts leads there. -/
def Passes (files : Files) (p : Path) (place : Location) : Prop :=
  ∃ front last back, p.segments = front ++ last :: back ∧
    front.foldlM files.enter (files.start p) = .ok place

theorem Passes.keeps (hpasses : before.Passes p place) (h : Keeps before after) :
    after.Passes p place := by
  obtain ⟨front, last, back, hp, hwalk⟩ := hpasses
  rw [← h.start] at hwalk
  exact ⟨front, last, back, hp, h.foldlM_enter hwalk⟩

/-- In a place stands what stood there, or else a new directory that the path passes. -/
def Furnished (p : Path) (before after : Files) (place : Location) : Prop :=
  after.node? place = before.node? place ∨
    (before.node? place = none ∧ after.node? place = some .directory ∧ after.Passes p place)

/-- Directories on the way to a path are new, and nothing else. -/
structure Furnishes (p : Path) (before after : Files) : Prop where
  home : after.home = before.home
  places : ∀ place, Furnished p before after place

namespace Furnishes

theorem refl (p : Path) (files : Files) : Furnishes p files files :=
  ⟨rfl, fun _ => .inl rfl⟩

theorem keeps (h : Furnishes p before after) : Keeps before after where
  home := h.home
  directory place hplace := by
    rcases h.places place with hsame | ⟨hnone, -⟩
    · rw [hsame, hplace]
    · rw [hnone] at hplace
      cases hplace

theorem trans (h : Furnishes p before middle) (h' : Furnishes p middle after) :
    Furnishes p before after where
  home := h'.home.trans h.home
  places place := by
    rcases h.places place with hsame | ⟨hnone, hnew, hpasses⟩
    · rcases h'.places place with hsame' | ⟨hnone', hnew', hpasses'⟩
      · exact .inl (hsame'.trans hsame)
      · exact .inr ⟨hsame ▸ hnone', hnew', hpasses'⟩
    · exact .inr ⟨hnone, h'.keeps.directory place hnew, hpasses.keeps h'.keeps⟩

/-- A directory that is made where the front of a path leads is one that the path passes. -/
theorem put (hq : q.Precedes p) (hlocate : files.locate q = .ok (.entry place slash))
    (hnode : files.node? place = none) : Furnishes p files (files.put place .directory) where
  home := rfl
  places other := by
    have hne : place ≠ [] := by rintro rfl; cases hnode
    have hput (other : Location) := node?_put files place other .directory hne
    by_cases hother : other = place
    · subst hother
      have hkeeps : Keeps files (files.put other .directory) := .put (by simp [hnode]) .directory
      obtain ⟨front, name, here, htrimmed, ⟨hdot, hup⟩, hwalk, hchild, -⟩ :=
        exists_of_locate_eq_ok hlocate
      obtain ⟨last, back, hp⟩ := hq.front
      have hnew : (files.put other .directory).node? other = some .directory := by
        rw [hput, if_pos rfl]
      have hstart : files.start q = (files.put other .directory).start p := by
        rw [hkeeps.start, Files.start, Files.start, hq.absolute]
      refine .inr ⟨hnode, hnew, q.segments, last, back, hp, ?_⟩
      rw [← hq.trimmed, htrimmed, List.foldlM_append, ← hstart]
      refine bind_eq_ok_iff.2 ⟨here, hkeeps.foldlM_enter hwalk, bind_eq_ok_iff.2 ⟨other, ?_, rfl⟩⟩
      exact enter_eq_ok_iff.2 (.inr (.inr
        ⟨⟨Path.ne_empty_of_trimmed htrimmed, hdot, hup⟩, hchild, hnew⟩))
    · exact .inl (by rw [hput, if_neg hother])

theorem createDirectory (hq : q.Precedes p) (h : files.createDirectory q = .ok made) :
    Furnishes p files made := by
  obtain ⟨target, hlocate, h⟩ := bind_eq_ok_iff.1 h
  cases target with
  | directory => cases h; exact refl p files
  | entry place slash =>
    dsimp only at h
    cases hnode : files.node? place with
    | none =>
      rw [hnode] at h
      cases h
      exact put hq hlocate hnode
    | some node => cases node <;> rw [hnode] at h <;> cases h; exact refl p files

end Furnishes

theorem furnishes_changed {made? : Except FileError Files}
    (h : ∀ made, made? = .ok made → Furnishes p files made) :
    Furnishes p files (files.changed made?).2 := by
  cases made? with
  | error e => exact .refl p files
  | ok made => exact h made rfl

theorem furnishes_createLineage {qs : List Path} (hqs : ∀ q ∈ qs, q.Precedes p) :
    Furnishes p files (files.createLineage qs).2 := by
  induction qs generalizing files with
  | nil => exact .refl p files
  | cons q above ih =>
    have hq := hqs q List.mem_cons_self
    have habove (files : Files) : Furnishes p files (files.createLineage above).2 :=
      ih fun r hr => hqs r (List.mem_cons_of_mem q hr)
    rw [createLineage]
    split
    · split
      · rename_i made hmade
        have hfirst := habove files
        rw [hmade] at hfirst
        exact hfirst.trans (furnishes_changed fun _ => .createDirectory hq)
      · exact habove files
    · exact furnishes_changed fun _ => .createDirectory hq

/-- Making the directory of a path changes nothing but missing directories on the way to it. -/
theorem furnishes_createDirectories {directory : Path} (h : p.parent? = some directory) :
    Furnishes p files (files.createDirectories directory).2 :=
  furnishes_createLineage fun _ hq => Path.precedes_of_mem_lineage h hq

/-! ### Files -/

/-- The file at a path has the given bytes. -/
def Holds (files : Files) (p : Path) (bytes : ByteArray) : Prop :=
  ∃ place, files.locate p = .ok (.entry place false) ∧ files.node? place = some (.file bytes)

/-- A text that has been read is what the bytes of the file say. -/
theorem holds_of_read_eq_ok (h : files.read p = .ok text) : files.Holds p text.toUTF8 := by
  obtain ⟨target, hlocate, h⟩ := bind_eq_ok_iff.1 h
  cases target with
  | directory => cases h
  | entry place slash =>
    dsimp only at h
    split at h
    · cases h
    · cases h
    · rename_i bytes hnode
      cases slash with
      | true => cases h
      | false =>
        simp only [Bool.false_eq_true, if_false] at h
        split at h
        · cases h
        · rename_i read hread
          cases h
          rw [String.fromUTF8?] at hread
          split at hread
          · cases hread
            exact ⟨place, hlocate, hnode⟩
          · cases hread

/-- A text is written where no directory stands. -/
theorem exists_of_write_eq_ok (h : files.write p text = .ok made) :
    ∃ place, files.locate p = .ok (.entry place false) ∧ files.node? place ≠ some .directory ∧
      made = files.put place (.file text.toUTF8) := by
  obtain ⟨target, hlocate, h⟩ := bind_eq_ok_iff.1 h
  cases target with
  | directory => cases h
  | entry place slash =>
    dsimp only at h
    split at h
    · cases h
    · rename_i hfree
      cases h
      obtain ⟨hslash, hnode⟩ : slash = false ∧ (files.node? place).any Node.isDirectory = false := by
        simpa using hfree
      subst hslash
      exact ⟨place, hlocate, by rintro hdirectory; simp [hdirectory, Node.isDirectory] at hnode, rfl⟩

/-- The file at a path holds a text, all directories on the way to it are there, and nothing else
has changed but that some of these are new. -/
structure Written (p : Path) (text : String) (before after : Files) : Prop where
  holds : after.Holds p text.toUTF8
  passable : ∀ front last back, p.segments = front ++ last :: back →
    ∃ place, front.foldlM after.enter (after.start p) = .ok place
  home : after.home = before.home
  others : ∀ place, after.locate p ≠ .ok (.entry place false) → Furnished p before after place

/-- All directories on the way to an entry are there. -/
theorem passable_of_locate_eq_ok (h : files.locate p = .ok (.entry place false)) {last : String}
    {back : List String} (hp : p.segments = front ++ last :: back) :
    ∃ place, front.foldlM files.enter (files.start p) = .ok place := by
  obtain ⟨walked, name, here, htrimmed, -, hwalk, -, hslash⟩ := exists_of_locate_eq_ok h
  have hlength : p.segments.length ≤ p.trimmed.length := by simpa using hslash
  have hsegments : walked ++ [name] = p.segments :=
    htrimmed ▸ p.trimmed_prefix.eq_of_length_le hlength
  have hfront : front <+: walked ++ [name] := hsegments ▸ hp ▸ List.prefix_append front _
  obtain ⟨behind, rfl⟩ : front <+: walked := by
    refine (List.prefix_concat_iff.1 hfront).resolve_left fun heq => ?_
    simpa [heq, hp] using congrArg List.length hsegments
  rw [List.foldlM_append] at hwalk
  obtain ⟨inner, hfront, -⟩ := bind_eq_ok_iff.1 hwalk
  exact ⟨inner, hfront⟩

/-- A text that is written behind new directories on the way to it is all that has changed. -/
theorem Furnishes.write (h : Furnishes p before middle) (hwrite : middle.write p text = .ok after) :
    Written p text before after := by
  obtain ⟨place, hlocate, hfree, rfl⟩ := exists_of_write_eq_ok hwrite
  have hkeeps := Keeps.put hfree (.file text.toUTF8)
  have hthere := hkeeps.locate hlocate
  have hne : place ≠ [] := by rintro rfl; exact hfree rfl
  have hput (other : Location) := node?_put middle place other (.file text.toUTF8) hne
  refine ⟨⟨place, hthere, by rw [hput, if_pos rfl]⟩, fun front last back =>
    passable_of_locate_eq_ok hthere, hkeeps.home.trans h.home, fun other hother => ?_⟩
  have hne' : other ≠ place := fun heq => hother (heq ▸ hthere)
  have hsame := (hput other).trans (if_neg hne')
  rcases h.places other with hold | ⟨hnone, hnew, hpasses⟩
  · exact .inl (hsame.trans hold)
  · exact .inr ⟨hnone, hsame.trans hnew, hpasses.keeps hkeeps⟩

end BulkMemory.Files
