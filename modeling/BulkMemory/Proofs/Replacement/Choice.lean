import BulkMemory.Proofs.Loop
import BulkMemory.Proofs.Replacement.Fresh
import Mathlib.Data.Finset.Card

/-!
# Which names the replacements take

A name is the base that was asked for, if it is free, and else the base with the least number that is
free (`IsChoice`). A search that tries one number after the other needs no bound: it ends after at most
as many tries as there are taken identifiers (`isChoice_freshName`, `searchName?_eq`). The replacements
of a run choose one after the other, and each one sees the names of those before it
(`Replacement.AreNamed`).
-/

namespace BulkMemory
set_option autoImplicit false

/-- The base of a name with a number. -/
def numbered (base : String) (n : Nat) : String := base ++ "_" ++ toString n

/-- The name to be chosen: the base, or the base with the least number, from one on, that makes it free.
That number is no greater than the number of identifiers that are taken. -/
inductive IsChoice (base : String) (taken : List String) : String → Prop where
  | base : identifier base ∉ taken → IsChoice base taken base
  | numbered {n : Nat} : identifier base ∈ taken → 1 ≤ n → n ≤ taken.toFinset.card →
      identifier (numbered base n) ∉ taken →
      (∀ k, 1 ≤ k → k < n → identifier (numbered base k) ∈ taken) →
      IsChoice base taken (numbered base n)

theorem nameCandidates_eq (base : String) (count : Nat) :
    nameCandidates base count = base :: (List.range count).map fun i => numbered base (i + 1) := rfl

/-- Names that are taken are no more than all that are. -/
theorem length_le_of_taken {names taken : List String} (hnodup : names.Nodup)
    (h : ∀ name ∈ names, identifier name ∈ taken) : names.length ≤ taken.toFinset.card := by
  have hids : (names.map identifier).Nodup :=
    List.pairwise_map.2 (hnodup.imp fun hne heq => hne (identifier_inj heq))
  have hsub : (names.map identifier).toFinset ⊆ taken.toFinset := by
    intro id hid
    rw [List.mem_toFinset] at hid ⊢
    obtain ⟨name, hname, rfl⟩ := List.mem_map.1 hid
    exact h name hname
  have hle := Finset.card_le_card hsub
  rwa [List.toFinset_card_of_nodup hids, List.length_map] at hle

theorem isChoice_freshName (base : String) (taken : List String) :
    IsChoice base taken (freshName base taken) := by
  have hfind := find?_nameCandidates base taken
  rw [nameCandidates_eq] at hfind
  by_cases hbase : identifier base ∈ taken
  · rw [List.find?_cons_of_neg (by simpa using hbase), List.find?_map] at hfind
    obtain ⟨i, hi, hname⟩ := Option.map_eq_some_iff.1 hfind
    obtain ⟨hfree, -, hearlier⟩ := List.find?_range_eq_some.1 hi
    have htaken : ∀ k, 1 ≤ k → k < i + 1 → identifier (numbered base k) ∈ taken := by
      intro k hpos hlt
      have hk := hearlier (k - 1) (by omega)
      rw [Function.comp_apply, Nat.sub_add_cancel hpos] at hk
      simpa using hk
    -- the candidates in front of the chosen one are all taken
    have hfront : ∀ name ∈ nameCandidates base i, identifier name ∈ taken := by
      intro name hname
      rw [nameCandidates_eq] at hname
      rcases List.mem_cons.1 hname with rfl | hname
      · exact hbase
      · obtain ⟨j, hj, rfl⟩ := List.mem_map.1 hname
        have hlt := List.mem_range.1 hj
        exact htaken (j + 1) (by omega) (by omega)
    have hcount := length_le_of_taken (nodup_nameCandidates base i) hfront
    rw [length_nameCandidates] at hcount
    rw [← hname]
    exact .numbered hbase (by omega) hcount (by simpa using hfree) htaken
  · rw [List.find?_cons_of_pos (by simpa using hbase)] at hfind
    rw [← Option.some.inj hfind]
    exact .base hbase

/-! ### The search without a bound -/

/-- One try: the search ends with a number that makes a base free. -/
def tryNumber? (base : String) (taken : List String) (n : Nat) : Option (Nat ⊕ Nat) :=
  if taken.contains (identifier (numbered base n)) then some (.inr (n + 1)) else some (.inl n)

/-- The first number, from `n` on, that makes a base free; `none` if there is no such number. -/
noncomputable def searchNumber? (base : String) (taken : List String) (n : Nat) : Option Nat :=
  loop? (tryNumber? base taken) n

/-- The base, if it is free, and else the base with the first number that makes it free. -/
noncomputable def searchName? (base : String) (taken : List String) : Option String :=
  if taken.contains (identifier base) then (searchNumber? base taken 1).map (numbered base)
  else some base

theorem searchNumber?_eq {base : String} {taken : List String} {n m : Nat} (hle : n ≤ m)
    (hfree : identifier (numbered base m) ∉ taken)
    (hearlier : ∀ k, n ≤ k → k < m → identifier (numbered base k) ∈ taken) :
    searchNumber? base taken n = some m := by
  -- by induction on the numbers in front of the free one
  obtain ⟨d, rfl⟩ := Nat.exists_eq_add_of_le hle
  induction d generalizing n with
  | zero =>
    apply loop?_done
    rw [tryNumber?, if_neg (by simpa using hfree), Nat.add_zero]
  | succ d ih =>
    have htaken : identifier (numbered base n) ∈ taken := hearlier n (Nat.le_refl n) (by omega)
    have htry : tryNumber? base taken n = some (.inr (n + 1)) := by
      rw [tryNumber?, if_pos (by simpa using htaken)]
    have hnext : n + (d + 1) = n + 1 + d := by omega
    rw [searchNumber?, loop?_next htry, ← searchNumber?, hnext]
    apply ih
    · omega
    · rwa [← hnext]
    · intro k hlow hhigh
      exact hearlier k (by omega) (by omega)

/-- The search ends with the name that is chosen. -/
theorem searchName?_eq {base name : String} {taken : List String} (h : IsChoice base taken name) :
    searchName? base taken = some name := by
  cases h with
  | base hfree => rw [searchName?, if_neg (by simpa using hfree)]
  | numbered htaken hpos _ hfree hearlier =>
    rw [searchName?, if_pos (by simpa using htaken), searchNumber?_eq hpos hfree hearlier]
    rfl

namespace Replacement

/-- Replacements for the instructions that were found, with their names: one for each instruction, the
one for copying in front, no two under one name, and none under a taken one. -/
structure AreNamed (detection : Detection) (config : Config) (taken : List String)
    (rs : List Replacement) : Prop where
  kinds : rs.map op = [Op.copy, Op.fill].filter detection.has
  functions : ∀ r ∈ rs, r = named r.op r.name
  distinct : (rs.map name).Nodup
  fresh : ∀ r ∈ rs, r.target ∉ taken
  /-- The names of the replacements in front are taken, too. -/
  choices : ∀ before r after, rs = before ++ r :: after →
    IsChoice (config.baseName r.op) ((before.map target).reverse ++ taken) r.name

variable {config : Config} {taken : List String} {ops : List Op}

theorem eq_named_of_mem_forOps : ∀ r ∈ forOps config taken ops, r = named r.op r.name := by
  induction ops generalizing taken with
  | nil => simp [forOps]
  | cons op ops ih =>
    intro r hr
    rcases List.mem_cons.1 hr with rfl | hr
    · rw [op_named, name_named]
    · exact ih r hr

theorem isChoice_of_forOps {before after : List Replacement} {r : Replacement}
    (h : forOps config taken ops = before ++ r :: after) :
    IsChoice (config.baseName r.op) ((before.map target).reverse ++ taken) r.name := by
  induction ops generalizing taken before with
  | nil => simp [forOps] at h
  | cons op ops ih =>
    rw [forOps] at h
    cases before with
    | nil =>
      obtain ⟨rfl, -⟩ := List.cons.inj h
      rw [op_named, name_named]
      exact isChoice_freshName (config.baseName op) taken
    | cons q before =>
      obtain ⟨rfl, hrest⟩ := List.cons.inj h
      have hlater := ih hrest
      rw [List.map_cons, List.reverse_cons, List.append_assoc, target, name_named]
      exact hlater

theorem areNamed_forDetection (detection : Detection) (config : Config) (taken : List String) :
    AreNamed detection config taken (forDetection detection config taken) := by
  refine ⟨map_op_forDetection detection config taken, eq_named_of_mem_forOps, ?_, target_not_mem,
    fun before r after h => isChoice_of_forOps h⟩
  have hnodup := nodup_targets config taken detection.ops
  have htargets : (forOps config taken detection.ops).map target =
      ((forOps config taken detection.ops).map name).map identifier := by
    rw [List.map_map]
    rfl
  rw [htargets] at hnodup
  exact hnodup.of_map identifier

/-- Replacements for some instructions, their names found by a search without a bound. -/
noncomputable def search? (config : Config) (taken : List String) : List Op → Option (List Replacement)
  | [] => some []
  | op :: ops => do
    let name ← searchName? (config.baseName op) taken
    let later ← search? config (identifier name :: taken) ops
    return named op name :: later

theorem search?_eq (config : Config) (taken : List String) (ops : List Op) :
    search? config taken ops = some (forOps config taken ops) := by
  induction ops generalizing taken with
  | nil => rfl
  | cons op ops ih =>
    have hname := searchName?_eq (isChoice_freshName (config.baseName op) taken)
    simp only [search?, forOps, hname, ih, Option.bind_eq_bind, Option.bind_some]
    rfl

end Replacement

/-- A name that is chosen is free and has the least number that makes it so. The search for it ends, with
a bound and without one, and never falls back on a taken base. The replacements of a run have one such
name each. -/
theorem names_chosen (base : String) (detection : Detection) (config : Config) (taken : List String) :
    (identifier (freshName base taken) ∉ taken ∧ IsChoice base taken (freshName base taken) ∧
      ((nameCandidates base taken.length).find? fun name => !taken.contains (identifier name)) =
        some (freshName base taken) ∧
      searchName? base taken = some (freshName base taken)) ∧
      Replacement.AreNamed detection config taken
        (Replacement.forDetection detection config taken) :=
  ⟨⟨freshName_not_mem base taken, isChoice_freshName base taken, find?_nameCandidates base taken,
    searchName?_eq (isChoice_freshName base taken)⟩,
    Replacement.areNamed_forDetection detection config taken⟩

/-- Both replacements are asked for under the same name, which is taken. -/
example : (Replacement.forDetection ⟨true, true⟩ { copyName := "m", fillName := "m" }
    ["$m", "$m_2"]).map Replacement.name = ["m_1", "m_3"] := by decide

end BulkMemory
