import BulkMemory.Proofs.Replacement.Names
import Mathlib

/-!
# The names of the replacements are new

There are more candidates for a name than names that are taken, and no two candidates are the same, so
one of them is free (`freshName_not_mem`). Each replacement takes its name before the next one is
chosen, and so the names differ (`Replacement.nodup_targets`).
-/

namespace BulkMemory
set_option autoImplicit false

theorem identifier_inj {a b : String} (h : identifier a = identifier b) : a = b := by
  simpa [identifier] using h

/-- No two candidates are the same: one has no suffix, and the others have different numbers. -/
theorem nodup_nameCandidates (base : String) (count : Nat) :
    (nameCandidates base count).Nodup := by
  refine List.nodup_cons.2 ⟨fun hmem => ?_, List.pairwise_map.2 ?_⟩
  · obtain ⟨n, -, hn⟩ := List.mem_map.1 hmem
    have hlength := congrArg String.length hn
    simp only [String.length_append] at hlength
    have hsuffix : "_".length = 1 := rfl
    omega
  · refine List.nodup_range.imp fun hne heq => hne ?_
    simpa [String.append_assoc, Nat.repr_inj] using heq

theorem length_nameCandidates (base : String) (count : Nat) :
    (nameCandidates base count).length = count + 1 := by
  simp [nameCandidates]

/-- The search for a free candidate never fails: each of them would be taken otherwise, and they are
too many for that. -/
theorem find?_nameCandidates (base : String) (taken : List String) :
    ((nameCandidates base taken.length).find? fun name => !taken.contains (identifier name)) =
      some (freshName base taken) := by
  rw [freshName]
  cases hfind : (nameCandidates base taken.length).find? fun name =>
      !taken.contains (identifier name) with
  | some name => rfl
  | none =>
    have hall : (nameCandidates base taken.length).map identifier ⊆ taken := by
      intro id hid
      obtain ⟨name, hname, rfl⟩ := List.mem_map.1 hid
      simpa using List.find?_eq_none.1 hfind name hname
    have hnodup : ((nameCandidates base taken.length).map identifier).Nodup :=
      List.pairwise_map.2 ((nodup_nameCandidates base taken.length).imp fun hne heq =>
        hne (identifier_inj heq))
    have hle := hnodup.length_le_of_subset hall
    rw [List.length_map, length_nameCandidates] at hle
    omega

/-- The name that is chosen is not taken. -/
theorem freshName_not_mem (base : String) (taken : List String) :
    identifier (freshName base taken) ∉ taken := by
  simpa using List.find?_some (find?_nameCandidates base taken)

namespace Replacement

/-- No replacement has a name that was taken before. -/
theorem target_not_mem {config : Config} {taken : List String} {ops : List Op} :
    ∀ r ∈ forOps config taken ops, r.target ∉ taken := by
  induction ops generalizing taken with
  | nil => simp [forOps]
  | cons op ops ih =>
    refine List.forall_mem_cons.2 ⟨?_, fun r hr hmem => ih r hr (List.mem_cons_of_mem _ hmem)⟩
    rw [target, name_named]
    exact freshName_not_mem (config.baseName op) taken

/-- No two replacements have the same name. -/
theorem nodup_targets (config : Config) (taken : List String) (ops : List Op) :
    ((forOps config taken ops).map target).Nodup := by
  induction ops generalizing taken with
  | nil => exact .nil
  | cons op ops ih =>
    refine List.nodup_cons.2 ⟨fun hmem => ?_, ih _⟩
    obtain ⟨r, hr, heq⟩ := List.mem_map.1 hmem
    apply target_not_mem r hr
    rw [heq, target, name_named]
    exact List.mem_cons_self

end Replacement

end BulkMemory
