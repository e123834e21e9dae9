import BulkMemory.Proofs.Machine.CopyBytes
import BulkMemory.Proofs.Machine.FillBytes
import BulkMemory.Proofs.Machine.Rounds

/-!
# Writes outside the memory

Whether a write fails depends on its counter and on the size of the memory alone (`FailsAt`), so a
list of writes stops at the first bad counter, whatever has been written before
(`FailsAt.exists_writeAll_eq_error`). Addresses are computed modulo the number of words; still, a
range that leaves a memory of fewer bytes has a counter whose address lies outside
(`exists_outside_iff`). Together they say exactly when a call traps.
-/

namespace BulkMemory.Machine
set_option autoImplicit false

open BulkMemory.Function

variable {write : Word → Memory → Option Memory} {size : Nat} {bad : Word → Prop} {m m' : Memory}

/-! ### Lists of writes -/

/-- In memories of one size a write fails exactly for the bad values of the counter, and otherwise it
keeps the size. -/
structure FailsAt (write : Word → Memory → Option Memory) (size : Nat) (bad : Word → Prop) :
    Prop where
  none_iff : ∀ i m, m.size = size → (write i m = none ↔ bad i)
  size_eq : ∀ i m m', m.size = size → write i m = some m' → m'.size = size

theorem FailsAt.writeAll_eq_ok (h : FailsAt write size bad) {is : List Word} (hm : m.size = size)
    (hgood : ∀ i ∈ is, ¬ bad i) : ∃ m', writeAll write is m = .ok m' ∧ m'.size = size := by
  induction is generalizing m with
  | nil => exact ⟨m, rfl, hm⟩
  | cons i is ih =>
    have hi : ¬ bad i := hgood i List.mem_cons_self
    cases hwrite : write i m with
    | none => exact absurd ((h.none_iff i m hm).1 hwrite) hi
    | some m₁ =>
      rw [writeAll, hwrite]
      exact ih (h.size_eq i m m₁ hm hwrite) fun j hj => hgood j (List.mem_cons_of_mem i hj)

theorem writeAll_append {is : List Word} (h : writeAll write is m = .ok m') (js : List Word) :
    writeAll write (is ++ js) m = writeAll write js m' := by
  induction is generalizing m with
  | nil =>
    cases h
    rfl
  | cons i is ih =>
    rw [List.cons_append, writeAll]
    rw [writeAll] at h
    cases hwrite : write i m with
    | none =>
      rw [hwrite] at h
      cases h
    | some m₁ =>
      rw [hwrite] at h
      exact ih h

/-- The writes stop at a bad counter, in the memory that those before it have left. -/
theorem FailsAt.writeAll_append_cons (h : FailsAt write size bad) {is : List Word}
    (hok : writeAll write is m = .ok m') (hsize : m'.size = size) {j : Word} (hbad : bad j)
    (js : List Word) : writeAll write (is ++ j :: js) m = .error m' := by
  rw [writeAll_append hok, writeAll, (h.none_iff j m' hsize).2 hbad]

/-- A list with a bad member can be cut at the first one. -/
theorem exists_first_bad {is : List Word} (h : ∃ i ∈ is, bad i) :
    ∃ before i after, is = before ++ i :: after ∧ (∀ j ∈ before, ¬ bad j) ∧ bad i := by
  induction is with
  | nil =>
    obtain ⟨i, hi, -⟩ := h
    cases hi
  | cons i is ih =>
    by_cases hi : bad i
    · exact ⟨[], i, is, rfl, by simp, hi⟩
    · have hrest : ∃ j ∈ is, bad j := by
        obtain ⟨j, hj, hbad⟩ := h
        rcases List.mem_cons.1 hj with rfl | hj
        · exact absurd hbad hi
        · exact ⟨j, hj, hbad⟩
      obtain ⟨before, j, after, rfl, hgood, hbad⟩ := ih hrest
      exact ⟨i :: before, j, after, rfl, List.forall_mem_cons.2 ⟨hi, hgood⟩, hbad⟩

/-- In front of a bad counter the writes stop somewhere, in the memory that some first ones have
left. -/
theorem FailsAt.exists_writeAll_eq_error (h : FailsAt write size bad) (is : List Word)
    (hm : m.size = size) {j : Word} (hbad : bad j) (js : List Word) :
    ∃ before m', before ⊆ is ∧ writeAll write before m = .ok m' ∧
      writeAll write (is ++ j :: js) m = .error m' := by
  by_cases hfirst : ∃ i ∈ is, bad i
  · obtain ⟨before, i, after, rfl, hgood, hi⟩ := exists_first_bad hfirst
    obtain ⟨m', hok, hsize⟩ := h.writeAll_eq_ok hm hgood
    refine ⟨before, m', List.subset_append_left _ _, hok, ?_⟩
    rw [List.append_assoc, List.cons_append]
    exact h.writeAll_append_cons hok hsize hi _
  · obtain ⟨m', hok, hsize⟩ := h.writeAll_eq_ok hm fun i hi hi' => hfirst ⟨i, hi, hi'⟩
    exact ⟨is, m', List.Subset.refl _, hok, h.writeAll_append_cons hok hsize hbad js⟩

theorem FailsAt.writeAll_eq_error_iff (h : FailsAt write size bad) {is : List Word}
    (hm : m.size = size) : (∃ m', writeAll write is m = .error m') ↔ ∃ i ∈ is, bad i := by
  constructor
  · rintro ⟨m', herror⟩
    by_cases hbad : ∃ i ∈ is, bad i
    · exact hbad
    · obtain ⟨m'', hok, -⟩ := h.writeAll_eq_ok hm fun i hi hi' => hbad ⟨i, hi, hi'⟩
      rw [hok] at herror
      cases herror
  · rintro ⟨i, hi, hbad⟩
    obtain ⟨before, after, rfl⟩ := List.append_of_mem hi
    obtain ⟨-, m', -, -, herror⟩ := h.exists_writeAll_eq_error before hm hbad after
    exact ⟨m', herror⟩

theorem copyWrite_failsAt (dest src : Word) (size : Nat) :
    FailsAt (copyWrite dest src) size
      fun i => size ≤ (dest + i).toNat ∨ size ≤ (src + i).toNat where
  none_iff := by
    rintro i m rfl
    rw [copyWrite]
    cases hload : m.load? (src + i).toNat with
    | none =>
      have hsrc : m.size ≤ (src + i).toNat := Memory.load?_eq_none_iff.1 hload
      exact ⟨fun _ => .inr hsrc, fun _ => rfl⟩
    | some b =>
      have hsrc : ¬ m.size ≤ (src + i).toNat := fun hout => by
        rw [Memory.load?_eq_none_iff.2 hout] at hload
        cases hload
      rw [Option.bind_some, Memory.store?_eq_none_iff, or_iff_left hsrc]
  size_eq := by
    rintro i m m' rfl h
    obtain ⟨b, -, hstore⟩ := Option.bind_eq_some_iff.1 h
    exact Memory.size_of_store? hstore

theorem fillWrite_failsAt (dest val : Word) (size : Nat) :
    FailsAt (fillWrite dest val) size fun i => size ≤ (dest + i).toNat where
  none_iff := by
    rintro i m rfl
    exact Memory.store?_eq_none_iff
  size_eq := by
    rintro i m m' rfl h
    exact Memory.size_of_store? h

/-! ### Ranges modulo the number of words -/

theorem mem_counters {start count : Nat} {i : Word} :
    i ∈ counters start count ↔ ∃ k, (start ≤ k ∧ k < start + count) ∧ i = BitVec.ofNat 32 k := by
  simp [counters, List.mem_range'_1, eq_comm]

/-- A range leaves a memory that does not have all addresses if and only if one of its addresses does,
although they are computed modulo the number of words. -/
theorem exists_outside_iff (w : Word) {len : Nat} (hpos : 0 < len)
    (hsize : size < Memory.addressLimit) :
    (∃ i ∈ counters 0 len, size ≤ (w + i).toNat) ↔ size < w.toNat + len := by
  constructor
  · rintro ⟨i, hi, hout⟩
    obtain ⟨k, hk, rfl⟩ := mem_counters.1 hi
    by_cases hin : w.toNat + k < size
    · rw [toNat_add_ofNat hin (Nat.le_of_lt hsize)] at hout
      omega
    · omega
  · intro hout
    -- the address behind the last byte, unless the range begins there already
    refine ⟨BitVec.ofNat 32 (size - w.toNat), mem_counters.2 ⟨_, by omega, rfl⟩, ?_⟩
    have hw : w.toNat < Memory.addressLimit := w.isLt
    rw [toNat_add_ofNat (show w.toNat + (size - w.toNat) < Memory.addressLimit by omega)
      (Nat.le_refl _)]
    omega

end BulkMemory.Machine
