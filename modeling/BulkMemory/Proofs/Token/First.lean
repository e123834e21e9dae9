import BulkMemory.Token

/-!
# The first place with a property

A property of a place may depend on all that stands in front of it and behind it. `FirstWith` says that
it holds at a place and at none before, `NoneWith` that it holds nowhere. There is one such first place
at most (`FirstWith.unique`).
-/

namespace BulkMemory
set_option autoImplicit false

variable {α : Type} {P : List α → α → List α → Prop}

/-- The property holds between `before` and `after`, and nowhere further to the left. -/
structure FirstWith (P : List α → α → List α → Prop) (xs before : List α) (x : α)
    (after : List α) : Prop where
  cut : xs = before ++ x :: after
  holds : P before x after
  first : ∀ front y gap, before = front ++ y :: gap → ¬ P front y (gap ++ x :: after)

/-- The property holds nowhere. -/
def NoneWith (P : List α → α → List α → Prop) (xs : List α) : Prop :=
  ∀ before x after, xs = before ++ x :: after → ¬ P before x after

variable {xs before before' after after' : List α} {x x' : α}

theorem FirstWith.not_none (h : FirstWith P xs before x after) : ¬ NoneWith P xs :=
  fun hnone => hnone before x after h.cut h.holds

/-- Of two places with the property, neither can stand behind the other. -/
theorem FirstWith.gap_eq_nil {gap : List α} (h : FirstWith P xs before x after)
    (h' : FirstWith P xs (before ++ gap) x' after') : gap = [] := by
  cases gap with
  | nil => rfl
  | cons y gap =>
    have hafter : x :: after = y :: (gap ++ x' :: after') := by
      simpa using h.cut.symm.trans h'.cut
    obtain ⟨rfl, rfl⟩ := List.cons.inj hafter
    exact absurd h.holds (h'.first before x gap rfl)

theorem FirstWith.unique (h : FirstWith P xs before x after)
    (h' : FirstWith P xs before' x' after') : before = before' ∧ x = x' ∧ after = after' := by
  have hbefore : before = before' := by
    rcases List.append_eq_append_iff.1 (h.cut.symm.trans h'.cut) with
      ⟨gap, rfl, -⟩ | ⟨gap, rfl, -⟩
    · rw [h.gap_eq_nil h', List.append_nil]
    · rw [h'.gap_eq_nil h, List.append_nil]
  subst hbefore
  exact ⟨rfl, List.cons.inj (List.append_cancel_left (h.cut.symm.trans h'.cut))⟩

theorem noneWith_nil : NoneWith P [] := by
  intro before x after hcut
  simp at hcut

/-- A property of what stands in front of a place does not change when the text grows. -/
theorem NoneWith.concat {P : List α → α → Prop} (h : NoneWith (fun front y _ => P front y) xs)
    (hx : ¬ P xs x) : NoneWith (fun front y _ => P front y) (xs ++ [x]) := by
  intro front y behind hcut
  rcases List.append_eq_append_iff.1 hcut with ⟨gap, hfront, hbehind⟩ | ⟨gap, hxs, hbehind⟩
  · cases gap with
    | nil =>
      obtain ⟨rfl, -⟩ := List.cons.inj hbehind
      rwa [hfront, List.append_nil]
    | cons z gap => simp at hbehind
  · cases gap with
    | nil =>
      obtain ⟨rfl, -⟩ := List.cons.inj hbehind
      rwa [← List.append_nil front, ← hxs]
    | cons z gap =>
      obtain ⟨rfl, -⟩ := List.cons.inj hbehind
      exact h front y gap hxs

/-! ### A property of what stands behind -/

variable {Q : α → List α → Prop} {y : α}

theorem NoneWith.cons (hy : ¬ Q y xs) (h : NoneWith (fun _ x after => Q x after) xs) :
    NoneWith (fun _ x after => Q x after) (y :: xs) := by
  intro front x after hcut
  cases front with
  | nil =>
    obtain ⟨rfl, rfl⟩ := List.cons.inj hcut
    exact hy
  | cons z front => exact h front x after (List.cons.inj hcut).2

theorem FirstWith.cons (hy : ¬ Q y xs) (h : FirstWith (fun _ x after => Q x after) xs before x after) :
    FirstWith (fun _ x after => Q x after) (y :: xs) (y :: before) x after := by
  refine ⟨by rw [h.cut]; rfl, h.holds, ?_⟩
  intro front z gap hcut
  cases front with
  | nil =>
    obtain ⟨rfl, rfl⟩ := List.cons.inj hcut
    rwa [← h.cut]
  | cons w front => exact h.first front z gap (List.cons.inj hcut).2

theorem firstWith_head (hy : Q y xs) : FirstWith (fun _ x after => Q x after) (y :: xs) [] y xs := by
  refine ⟨rfl, hy, ?_⟩
  intro front z gap hcut
  simp at hcut

end BulkMemory
