import BulkMemory.Occurrence
import BulkMemory.Proofs.Token.Placement

/-!
# The memory indices behind a mnemonic

An instruction takes as many zeros as it may carry, with trivia in front of each, or nothing.
`takenIndices` and `refusedIndex?` say which lexemes these are, among those that carry meaning;
`splitTaken` says where they end in a text with trivia. All three look at a list through a view, so
that they serve for lexemes as for tokens. `Indices.read_eq` describes the reader in these terms.
-/

namespace BulkMemory
set_option autoImplicit false

variable {α β : Type} (view : α → Lexeme)

/-- The zeros that an instruction takes, of those at the front of a list. -/
def takenIndices (count : Nat) (xs : List α) : List α :=
  let zeros := xs.takeWhile fun x => (view x).isZero
  if count ≤ zeros.length then zeros.take count else []

/-- The operand for which an instruction is refused: a number or an identifier behind too few
zeros. -/
def refusedIndex? (count : Nat) (xs : List α) : Option α :=
  if count ≤ (xs.takeWhile fun x => (view x).isZero).length then none
  else
    (xs.dropWhile fun x => (view x).isZero).head?.filter fun x =>
      (view x).kind == .number || (view x).kind == .id

/-- The part of a list up to the last of the given number of zeros, with trivia between them, and
what follows it; `none` when so many are not there. -/
def splitTaken : (count : Nat) → List α → Option (List α × List α)
  | 0, xs => some ([], xs)
  | _ + 1, [] => none
  | count + 1, x :: xs =>
    if (view x).isTrivia then
      (splitTaken (count + 1) xs).map fun (gap, rest) => (x :: gap, rest)
    else if (view x).isZero then
      (splitTaken count xs).map fun (gap, rest) => (x :: gap, rest)
    else none

/-- The members of a list that carry meaning, seen through a view. -/
def meaningful (xs : List α) : List α := xs.filter fun x => !(view x).isTrivia

theorem Lexeme.isZero_eq_false_of_isTrivia {l : Lexeme} (h : l.isTrivia = true) :
    l.isZero = false := by
  rw [Lexeme.isTrivia] at h
  cases hkind : l.kind <;> rw [hkind] at h <;> simp [Lexeme.isZero, hkind, Kind.isTrivia] at h ⊢

/-- A gap is made of trivia and of the zeros taken, and ends with the last of them. -/
structure IsGap (count : Nat) (gap : List α) : Prop where
  zeros : ∀ x ∈ meaningful view gap, (view x).isZero = true
  length : (meaningful view gap).length = count
  last : ∀ x ∈ gap.getLast?, (view x).isZero = true

variable {view} {count : Nat} {x : α} {xs gap rest : List α}

theorem mem_of_mem_takenIndices (h : x ∈ takenIndices view count xs) : x ∈ xs := by
  rw [takenIndices] at h
  split at h
  · exact (List.takeWhile_sublist _).subset (List.mem_of_mem_take h)
  · cases h

theorem IsGap.getLast?_meaningful (h : IsGap view count gap) :
    (meaningful view gap).getLast? = gap.getLast? := by
  rcases List.eq_nil_or_concat gap with rfl | ⟨init, z, rfl⟩
  · rfl
  · have hzero : (view z).isZero = true := h.last z (by simp)
    have hz : (view z).isTrivia = false := by
      cases hz : (view z).isTrivia with
      | false => rfl
      | true => rw [Lexeme.isZero_eq_false_of_isTrivia hz] at hzero; cases hzero
    simp [meaningful, List.filter_append, hz]

theorem eq_append_of_splitTaken (h : splitTaken view count xs = some (gap, rest)) :
    xs = gap ++ rest := by
  fun_induction splitTaken view count xs generalizing gap rest with
  | case1 => cases h; rfl
  | case2 | case5 => cases h
  | case3 _ _ _ _ ih | case4 _ _ _ _ _ ih =>
    obtain ⟨⟨gap', rest'⟩, hsplit, heq⟩ := Option.map_eq_some_iff.1 h
    cases heq
    rw [ih hsplit, List.cons_append]

theorem meaningful_cons_of_trivia (h : (view x).isTrivia = true) :
    meaningful view (x :: xs) = meaningful view xs := by
  simp [meaningful, h]

theorem meaningful_cons_of_not_trivia (h : (view x).isTrivia = false) :
    meaningful view (x :: xs) = x :: meaningful view xs := by
  simp [meaningful, h]

theorem meaningful_append (xs ys : List α) :
    meaningful view (xs ++ ys) = meaningful view xs ++ meaningful view ys := List.filter_append ..

theorem isGap_of_splitTaken (h : splitTaken view count xs = some (gap, rest)) :
    IsGap view count gap := by
  fun_induction splitTaken view count xs generalizing gap rest with
  | case1 =>
    cases h
    exact ⟨by simp [meaningful], rfl, by simp⟩
  | case2 | case5 => cases h
  | case3 count x xs htrivia ih =>
    obtain ⟨⟨gap', rest'⟩, hsplit, heq⟩ := Option.map_eq_some_iff.1 h
    cases heq
    have hgap := ih hsplit
    refine ⟨by rw [meaningful_cons_of_trivia htrivia]; exact hgap.zeros,
      by rw [meaningful_cons_of_trivia htrivia]; exact hgap.length, ?_⟩
    have hne : gap' ≠ [] := by
      rintro rfl
      exact absurd hgap.length (by simp [meaningful])
    obtain ⟨y, ys, rfl⟩ := List.exists_cons_of_ne_nil hne
    rw [List.getLast?_cons_cons]
    exact hgap.last
  | case4 count x xs htrivia hzero ih =>
    obtain ⟨⟨gap', rest'⟩, hsplit, heq⟩ := Option.map_eq_some_iff.1 h
    cases heq
    have hgap := ih hsplit
    have hcons : meaningful view (x :: gap') = x :: meaningful view gap' :=
      meaningful_cons_of_not_trivia (by simpa using htrivia)
    refine ⟨?_, by rw [hcons, List.length_cons, hgap.length], ?_⟩
    · intro y hy
      rw [hcons] at hy
      rcases List.mem_cons.1 hy with rfl | hy
      · exact hzero
      · exact hgap.zeros y hy
    · cases gap' with
      | nil => simpa using hzero
      | cons y ys =>
        rw [List.getLast?_cons_cons]
        exact hgap.last

/-- Where a gap was split off, its zeros are taken. -/
theorem IsGap.takenIndices_eq (h : IsGap view count gap) (rest : List α) :
    takenIndices view count (meaningful view (gap ++ rest)) = meaningful view gap := by
  rw [takenIndices, meaningful_append, List.takeWhile_append_of_pos h.zeros]
  have hlength := h.length
  rw [if_pos (by rw [List.length_append]; omega), ← hlength, List.take_left]

theorem IsGap.refusedIndex?_eq (h : IsGap view count gap) (rest : List α) :
    refusedIndex? view count (meaningful view (gap ++ rest)) = none := by
  have hlength := h.length
  rw [refusedIndex?, meaningful_append, List.takeWhile_append_of_pos h.zeros,
    if_pos (by rw [List.length_append]; omega)]

/-- Where no gap is split off, there are too few zeros. -/
theorem length_zeros_lt_of_splitTaken (h : splitTaken view count xs = none) :
    ((meaningful view xs).takeWhile fun x => (view x).isZero).length < count := by
  fun_induction splitTaken view count xs with
  | case1 => cases h
  | case2 => simp [meaningful]
  | case3 _ _ _ htrivia ih =>
    rw [meaningful_cons_of_trivia htrivia]
    exact ih (Option.map_eq_none_iff.1 h)
  | case4 _ _ _ htrivia hzero ih =>
    rw [meaningful_cons_of_not_trivia (by simpa using htrivia), List.takeWhile_cons, if_pos hzero]
    exact Nat.succ_lt_succ (ih (Option.map_eq_none_iff.1 h))
  | case5 _ _ _ htrivia hzero =>
    rw [meaningful_cons_of_not_trivia (by simpa using htrivia), List.takeWhile_cons, if_neg hzero]
    exact Nat.succ_pos _

theorem takenIndices_of_splitTaken (h : splitTaken view count xs = none) :
    takenIndices view count (meaningful view xs) = [] :=
  if_neg (Nat.not_le.2 (length_zeros_lt_of_splitTaken h))

theorem refusedIndex?_cons_of_zero (h : (view x).isZero = true) (count : Nat) (xs : List α) :
    refusedIndex? view (count + 1) (x :: xs) = refusedIndex? view count xs := by
  simp only [refusedIndex?, List.takeWhile_cons, List.dropWhile_cons, h, if_true, List.length_cons,
    Nat.add_le_add_iff_right]

theorem refusedIndex?_cons_of_not_zero (h : (view x).isZero = false) (count : Nat) (xs : List α) :
    refusedIndex? view (count + 1) (x :: xs) =
      if (view x).kind = .number ∨ (view x).kind = .id then some x else none := by
  simp [refusedIndex?, h, Option.filter]

/-! ### The reader -/

/-- What the reader of indices finds, in terms of the part it splits off. -/
theorem Indices.read_eq (stop count : Nat) (ts : List Token) :
    Indices.read stop count ts =
      match splitTaken Token.toLexeme count ts with
      | some (gap, rest) => .zeros ((gap.getLast?.map Token.stop).getD stop) rest
      | none =>
        match refusedIndex? Token.toLexeme count (meaningful Token.toLexeme ts) with
        | some t => .unsupported t
        | none => .omitted := by
  fun_induction Indices.read stop count ts with
  | case1 stop ts => rw [splitTaken]; rfl
  | case2 => rfl
  | case3 stop count t ts htrivia ih =>
    rw [ih, splitTaken, if_pos htrivia, meaningful_cons_of_trivia htrivia]
    cases hsplit : splitTaken Token.toLexeme (count + 1) ts with
    | none => rfl
    | some split =>
      obtain ⟨gap, rest⟩ := split
      have hne : gap ≠ [] := by
        rintro rfl
        exact absurd (isGap_of_splitTaken hsplit).length (by simp [meaningful])
      obtain ⟨u, us, rfl⟩ := List.exists_cons_of_ne_nil hne
      simp [List.getLast?_cons_cons]
  | case4 stop count t ts htrivia hzero ih =>
    have hcons : meaningful Token.toLexeme (t :: ts) = t :: meaningful Token.toLexeme ts :=
      meaningful_cons_of_not_trivia (by simpa using htrivia)
    rw [ih, splitTaken, if_neg htrivia, if_pos hzero, hcons]
    cases hsplit : splitTaken Token.toLexeme count ts with
    | none =>
      rw [refusedIndex?_cons_of_zero hzero]
      rfl
    | some split =>
      obtain ⟨gap, rest⟩ := split
      simp only [Option.map_some, List.getLast?_cons]
      cases gap.getLast? <;> rfl
  | case5 stop count t ts htrivia hzero hkind | case6 stop count t ts htrivia hzero hkind =>
    have hcons : meaningful Token.toLexeme (t :: ts) = t :: meaningful Token.toLexeme ts :=
      meaningful_cons_of_not_trivia (by simpa using htrivia)
    rw [splitTaken, if_neg htrivia, if_neg hzero, hcons,
      refusedIndex?_cons_of_not_zero (by simpa using hzero)]
    simp only [hkind, if_true, if_false]

theorem Indices.of_read_omitted {stop count : Nat} {ts : List Token}
    (h : Indices.read stop count ts = .omitted) :
    splitTaken Token.toLexeme count ts = none ∧
      refusedIndex? Token.toLexeme count (Token.significant ts) = none := by
  rw [read_eq] at h
  split at h
  · cases h
  · next hsplit =>
    split at h
    · cases h
    · next hrefused => exact ⟨hsplit, hrefused⟩

theorem Indices.of_read_zeros {stop count stop' : Nat} {ts rest : List Token}
    (h : Indices.read stop count ts = .zeros stop' rest) :
    ∃ gap, splitTaken Token.toLexeme count ts = some (gap, rest) ∧
      stop' = (gap.getLast?.map Token.stop).getD stop := by
  rw [read_eq] at h
  split at h
  · next gap rest' hsplit =>
    cases h
    exact ⟨gap, hsplit, rfl⟩
  · split at h <;> cases h

theorem Indices.of_read_unsupported {stop count : Nat} {ts : List Token} {t : Token}
    (h : Indices.read stop count ts = .unsupported t) :
    refusedIndex? Token.toLexeme count (Token.significant ts) = some t := by
  rw [read_eq] at h
  split at h
  · cases h
  · split at h
    · next hrefused =>
      cases h
      exact hrefused
    · cases h

/-! ### Cutting the list behind the mnemonic -/

/-- No index goes on here: what comes first is neither a number nor an identifier. -/
def StopsIndices (view : α → Lexeme) (xs : List α) : Prop :=
  ∀ x ∈ (meaningful view xs).head?, (view x).kind ≠ .number ∧ (view x).kind ≠ .id

theorem StopsIndices.not_zero (h : StopsIndices view xs) :
    ∀ x ∈ (meaningful view xs).head?, (view x).isZero = false := by
  intro x hx
  have hkind := (h x hx).1
  simp [Lexeme.isZero, hkind]

variable {ys : List α}

theorem takeWhile_append_of_stops (h : StopsIndices view ys) :
    (meaningful view (xs ++ ys)).takeWhile (fun x => (view x).isZero) =
      (meaningful view xs).takeWhile fun x => (view x).isZero := by
  rw [meaningful_append]
  generalize meaningful view xs = zs
  induction zs with
  | nil =>
    have hhead := h.not_zero
    cases hys : meaningful view ys with
    | nil => rfl
    | cons y ys =>
      have hy : (view y).isZero = false := hhead y (by rw [hys]; rfl)
      simp [hy]
  | cons z zs ih => simp only [List.cons_append, List.takeWhile_cons, ih]

theorem takenIndices_append (h : StopsIndices view ys) (count : Nat) (xs : List α) :
    takenIndices view count (meaningful view (xs ++ ys)) =
      takenIndices view count (meaningful view xs) := by
  rw [takenIndices, takeWhile_append_of_stops h, takenIndices]

theorem refusedIndex?_append (h : StopsIndices view ys) (count : Nat) (xs : List α) :
    refusedIndex? view count (meaningful view (xs ++ ys)) =
      refusedIndex? view count (meaningful view xs) := by
  have hdrop : ((meaningful view (xs ++ ys)).dropWhile fun x => (view x).isZero).head?.filter
        (fun x => (view x).kind == .number || (view x).kind == .id) =
      ((meaningful view xs).dropWhile fun x => (view x).isZero).head?.filter
        (fun x => (view x).kind == .number || (view x).kind == .id) := by
    rw [meaningful_append]
    generalize meaningful view xs = zs
    induction zs with
    | nil =>
      cases hys : meaningful view ys with
      | nil => rfl
      | cons y ys =>
        have hy : (view y).isZero = false := h.not_zero y (by rw [hys]; rfl)
        have hkind := h y (by rw [hys]; rfl)
        simp [hy, hkind]
    | cons z zs ih =>
      cases hz : (view z).isZero with
      | true => simpa only [List.cons_append, List.dropWhile_cons, hz, if_true] using ih
      | false => simp [hz]
  rw [refusedIndex?, takeWhile_append_of_stops h, hdrop, refusedIndex?]

theorem StopsIndices.splitTaken_eq_none (h : StopsIndices view ys) (count : Nat) :
    splitTaken view (count + 1) ys = none := by
  cases hsplit : splitTaken view (count + 1) ys with
  | none => rfl
  | some split =>
    obtain ⟨gap, rest⟩ := split
    have hgap := isGap_of_splitTaken hsplit
    have hlength := hgap.length
    cases hgap' : meaningful view gap with
    | nil =>
      rw [hgap'] at hlength
      cases hlength
    | cons z zs =>
      have hzero := hgap.zeros z (by rw [hgap']; exact List.mem_cons_self)
      have hhead : z ∈ (meaningful view ys).head? := by
        rw [eq_append_of_splitTaken hsplit, meaningful_append, hgap']
        rfl
      rw [h.not_zero z hhead] at hzero
      cases hzero

theorem splitTaken_append (h : StopsIndices view ys) (count : Nat) (xs : List α) :
    splitTaken view count (xs ++ ys) =
      (splitTaken view count xs).map fun (gap, rest) => (gap, rest ++ ys) := by
  fun_induction splitTaken view count xs with
  | case1 xs => rw [splitTaken]; rfl
  | case2 count => exact h.splitTaken_eq_none count
  | case3 count x xs htrivia ih =>
    rw [List.cons_append, splitTaken, if_pos htrivia, ih, Option.map_map, Option.map_map]
    rfl
  | case4 count x xs htrivia hzero ih =>
    rw [List.cons_append, splitTaken, if_neg htrivia, if_pos hzero, ih, Option.map_map,
      Option.map_map]
    rfl
  | case5 count x xs htrivia hzero =>
    rw [List.cons_append, splitTaken, if_neg htrivia, if_neg hzero]
    rfl

/-! ### Changing the view -/

theorem takenIndices_map (f : β → α) (count : Nat) (xs : List β) :
    takenIndices view count (xs.map f) = (takenIndices (fun x => view (f x)) count xs).map f := by
  rw [takenIndices, takenIndices, apply_ite (List.map f)]
  simp only [List.takeWhile_map, List.length_map, List.map_take]
  rfl

theorem meaningful_map (view : α → Lexeme) (f : β → α) (xs : List β) :
    meaningful view (xs.map f) = (meaningful (fun x => view (f x)) xs).map f := by
  simp only [meaningful, List.filter_map]
  rfl

theorem refusedIndex?_map (f : β → α) (count : Nat) (xs : List β) :
    refusedIndex? view count (xs.map f) = (refusedIndex? (fun x => view (f x)) count xs).map f := by
  rw [refusedIndex?, refusedIndex?, apply_ite (Option.map f)]
  simp only [List.takeWhile_map, List.length_map, List.dropWhile_map, List.head?_map,
    Option.filter_map]
  rfl

end BulkMemory
