import BulkMemory.Machine

/-!
# More rounds change nothing

The number of rounds only bounds how long a loop may go on. `Ending.Extends` compares the ending of
a run with that of a shorter one, and every piece of the machine respects it, a loop also in its
bound (`repeatLoop_extends`). So a call that finished under some bound ends in the same way under
every larger one (`Function.call_eq_of_le`).
-/

namespace BulkMemory.Machine
set_option autoImplicit false

/-- The endings of a longer and of a shorter run agree, unless the shorter one was unfinished. -/
def Ending.Extends (longer shorter : Ending) : Prop := shorter ≠ .unfinished → longer = shorter

namespace Ending

variable {e e' : Ending} {f f' : State → Ending}

theorem Extends.refl (e : Ending) : e.Extends e := fun _ => rfl

theorem Extends.andThen (h : e'.Extends e) (hf : ∀ s, (f' s).Extends (f s)) :
    (e'.andThen f').Extends (e.andThen f) := by
  intro hne
  have he : e' = e := h fun hunfinished => hne (by rw [hunfinished]; rfl)
  subst he
  cases e' with
  | next s => exact hf s hne
  | branch | trap | stuck | unfinished => rfl

end Ending

namespace State

variable {body body' : State → Ending}

theorem pop_extends (s : State) {f f' : Word → State → Ending}
    (h : ∀ w s, (f' w s).Extends (f w s)) : (s.pop f').Extends (s.pop f) := by
  unfold pop
  split
  · exact h _ _
  · exact .refl _

theorem inBlock_extends (h : ∀ s, (body' s).Extends (body s)) (s : State) :
    (s.inBlock body').Extends (s.inBlock body) := by
  intro hne
  have hbody : body' { s with operands := [] } = body { s with operands := [] } :=
    h _ fun hunfinished => hne (by rw [inBlock, hunfinished])
  rw [inBlock, inBlock, hbody]

theorem catchBranch_extends (s : State) (label : String) {e e' : Ending} (h : e'.Extends e) :
    (s.catchBranch label e').Extends (s.catchBranch label e) := by
  intro hne
  have he : e' = e := h fun hunfinished => hne (by rw [hunfinished]; rfl)
  rw [he]

/-- A loop that was left within its bound is left in the same round under a larger bound. -/
theorem repeatLoop_extends (label : String) (h : ∀ s, (body' s).Extends (body s)) {n n' : Nat}
    (hle : n ≤ n') (s : State) :
    (repeatLoop label body' n' s).Extends (repeatLoop label body n s) := by
  induction n generalizing n' s with
  | zero => exact fun hne => absurd rfl hne
  | succ n ih =>
    obtain ⟨k, rfl⟩ : ∃ k, n' = k + 1 := ⟨n' - 1, by omega⟩
    intro hne
    have hround : s.inBlock body' = s.inBlock body :=
      inBlock_extends h s fun hunfinished => hne (by rw [repeatLoop, hunfinished])
    rw [repeatLoop, repeatLoop, hround]
    rw [repeatLoop] at hne
    cases hend : s.inBlock body with
    | branch l t =>
      simp only [hend] at hne ⊢
      by_cases hl : l = label
      · simp only [hl, if_true] at hne ⊢
        exact ih (by omega) _ hne
      · simp only [if_neg hl]
    | next | trap | stuck | unfinished => rfl

end State

end Machine

open Machine

namespace Instr

variable {n n' : Nat}

mutual

theorem exec_extends (hle : n ≤ n') : (i : Instr) → (s : State) →
    (i.exec n' s).Extends (i.exec n s)
  | localGet _, s | const _, s | br _, s | comment _, s => by
    rw [exec, exec]
    exact .refl _
  | localSet name value, s => by
    rw [exec, exec]
    exact (exec_extends hle value s).andThen fun s => s.pop_extends fun _ _ => .refl _
  | binary op lhs rhs, s => by
    rw [exec, exec]
    exact (exec_extends hle lhs s).andThen fun s =>
      (exec_extends hle rhs s).andThen fun s => .refl _
  | eqz value, s | load8U value, s | brIf _ value, s => by
    rw [exec, exec]
    exact (exec_extends hle value s).andThen fun s => .refl _
  | store8 addr value, s => by
    rw [exec, exec]
    exact (exec_extends hle addr s).andThen fun s =>
      (exec_extends hle value s).andThen fun s => .refl _
  | block label body, s => by
    rw [exec, exec]
    exact s.catchBranch_extends label (State.inBlock_extends (execAll_extends hle body) s)
  | loop label body, s => by
    rw [exec, exec]
    exact State.repeatLoop_extends label (execAll_extends hle body) hle s
  | ifElse cond thenBody elseBody, s => by
    rw [exec, exec]
    refine (exec_extends hle cond s).andThen fun s => s.pop_extends fun w s =>
      State.inBlock_extends (fun s => ?_) s
    split
    · exact execAll_extends hle elseBody s
    · exact execAll_extends hle thenBody s

theorem execAll_extends (hle : n ≤ n') : (is : List Instr) → (s : State) →
    (execAll n' is s).Extends (execAll n is s)
  | [], s => by
    rw [execAll, execAll]
    exact .refl _
  | i :: is, s => by
    rw [execAll, execAll]
    exact (exec_extends hle i s).andThen (execAll_extends hle is)

end

end Instr

/-- A call that finished within some number of rounds ends in the same way within more. -/
theorem Function.call_eq_of_le {f : Function} {arguments : List Word} {m : Memory} {n n' : Nat}
    (hfinished : f.call n arguments m ≠ .unfinished) (hle : n ≤ n') :
    f.call n' arguments m = f.call n arguments m := by
  rw [call] at hfinished ⊢
  rw [call]
  split at hfinished
  · next hargs =>
    have hbody : Instr.execAll n' f.body (f.entry arguments m) =
        Instr.execAll n f.body (f.entry arguments m) :=
      Instr.execAll_extends hle f.body _ fun hunfinished =>
        hfinished (by rw [hunfinished])
    rw [if_pos hargs, if_pos hargs, hbody]
  · next hargs => rw [if_neg hargs, if_neg hargs]

end BulkMemory
