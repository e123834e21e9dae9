import Mathlib.Data.PFun
import Mathlib.Logic.Relation

/-!
# Loops without a bound

`loop?` repeats a step until the step gives a result. No measure is asked for: a loop without an end comes
to nothing, and so does a loop with a step that comes to nothing. So `loop? step s = some r` says that the
loop ends, after finitely many rounds, and with what (`loop?_eq_some_iff`).
-/

namespace BulkMemory
set_option autoImplicit false

variable {σ ρ : Type} {step : σ → Option (ρ ⊕ σ)} {s t : σ} {r : ρ}

/-- The result of a loop, where it has one. -/
def loopResult (step : σ → Option (ρ ⊕ σ)) : σ →. ρ := PFun.fix fun s => step s

open Classical in
/-- Repeat a step, which gives the result or what to go on with. -/
noncomputable def loop? (step : σ → Option (ρ ⊕ σ)) (s : σ) : Option ρ := (loopResult step s).toOption

open Classical in
theorem loop?_eq_some_iff_mem : loop? step s = some r ↔ r ∈ loopResult step s := by
  rw [loop?]
  exact Part.toOption_eq_some_iff

theorem loop?_done (h : step s = some (.inl r)) : loop? step s = some r := by
  rw [loop?_eq_some_iff_mem]
  apply PFun.fix_stop
  simp [h]

theorem loop?_next (h : step s = some (.inr t)) : loop? step s = loop? step t := by
  have hsame : loopResult step s = loopResult step t := by
    apply PFun.fix_fwd_eq
    simp [h]
  apply Option.ext
  intro r
  rw [loop?_eq_some_iff_mem, loop?_eq_some_iff_mem, hsame]

/-- A loop has a result exactly if finitely many rounds lead to a step that gives it. -/
theorem loop?_eq_some_iff :
    loop? step s = some r ↔
      ∃ t, Relation.ReflTransGen (fun a b => step a = some (.inr b)) s t ∧ step t = some (.inl r) := by
  constructor
  · intro h
    rw [loop?_eq_some_iff_mem] at h
    refine PFun.fixInduction' h (fun a ha => ?_) (fun a b _ hab ih => ?_)
    · exact ⟨a, .refl, by simpa using ha⟩
    · obtain ⟨t, hrounds, hdone⟩ := ih
      exact ⟨t, .head (by simpa using hab) hrounds, hdone⟩
  · rintro ⟨t, hrounds, hdone⟩
    induction hrounds using Relation.ReflTransGen.head_induction_on with
    | refl => exact loop?_done hdone
    | head hnext _ ih => rw [loop?_next hnext, ih]

end BulkMemory
