import BulkMemory.Machine.Memory

/-!
# Memories in the middle of a loop

A routine that writes the bytes of a range one by one passes through memories in which only a part
of the range is new. `Memory.patched` is such a memory: the new bytes with the numbers from `lo` up
to `hi` are in place. `store?_patched` says that one more byte at either end of that part gives the
next such memory.
-/

namespace BulkMemory.Memory
set_option autoImplicit false

theorem load?_eq_none_iff {m : Memory} {address : Nat} :
    m.load? address = none ↔ m.size ≤ address := List.getElem?_eq_none_iff

theorem store?_eq_none_iff {m : Memory} {address : Nat} {b : Byte} :
    m.store? address b = none ↔ m.size ≤ address := by
  rw [store?]
  split
  · simp only [reduceCtorEq, false_iff]
    omega
  · simp only [true_iff]
    omega

theorem size_of_store? {m m' : Memory} {address : Nat} {b : Byte}
    (h : m.store? address b = some m') : m'.size = m.size := by
  rw [store?] at h
  split at h
  · cases h
    exact List.length_set
  · cases h

/-- A store leaves the bytes at other addresses alone. -/
theorem getElem?_of_store? {m m' : Memory} {address k : Nat} {b : Byte}
    (h : m.store? address b = some m') (hk : k ≠ address) : m'.bytes[k]? = m.bytes[k]? := by
  rw [store?] at h
  split at h
  · cases h
    exact List.getElem?_set_ne hk.symm
  · cases h

/-- The bytes of a range. -/
def range (m : Memory) (start len : Nat) : List Byte := (m.bytes.drop start).take len

theorem length_range {m : Memory} {start len : Nat} (h : start + len ≤ m.size) :
    (m.range start len).length = len := by
  simp only [range, size, List.length_take, List.length_drop] at h ⊢
  omega

theorem getElem?_range (m : Memory) (start len : Nat) {k : Nat} (hk : k < len) :
    (m.range start len)[k]? = m.bytes[start + k]? := by
  rw [range, List.getElem?_take_of_lt hk, List.getElem?_drop]

/-- Put the bytes numbered from `lo` up to `hi` in their places, number zero having its place at
`start`. -/
def patched (m : Memory) (start : Nat) (new : List Byte) (lo hi : Nat) : Memory :=
  m.splice (start + lo) ((new.drop lo).take (hi - lo))

variable {m : Memory} {start : Nat} {new : List Byte} {lo hi : Nat}

theorem patched_none (m : Memory) (start : Nat) (new : List Byte) (lo : Nat) :
    m.patched start new lo lo = m := by
  simp [patched, splice]

theorem patched_all (m : Memory) (start : Nat) (hhi : new.length = hi) :
    m.patched start new 0 hi = m.splice start new := by
  simp [patched, ← hhi]

theorem length_middle (hhi : hi ≤ new.length) : ((new.drop lo).take (hi - lo)).length = hi - lo := by
  rw [List.length_take, List.length_drop]
  omega

theorem size_patched (hfit : start + new.length ≤ m.size) (hlo : lo ≤ hi) (hhi : hi ≤ new.length) :
    (m.patched start new lo hi).size = m.size := by
  apply size_splice
  rw [length_middle hhi]
  omega

theorem getElem?_patched (hfit : start + new.length ≤ m.size) (hlo : lo ≤ hi)
    (hhi : hi ≤ new.length) (k : Nat) :
    (m.patched start new lo hi).bytes[k]? =
      if start + lo ≤ k ∧ k < start + hi then new[k - start]? else m.bytes[k]? := by
  have hlen : ((new.drop lo).take (hi - lo)).length = hi - lo := length_middle hhi
  rw [patched, getElem?_splice _ _ _ (by rw [hlen]; omega), hlen]
  by_cases hk : start + lo ≤ k ∧ k < start + hi
  · have hindex : lo + (k - (start + lo)) = k - start := by omega
    rw [if_pos hk, if_pos (by omega), List.getElem?_take_of_lt (by omega), List.getElem?_drop, hindex]
  · rw [if_neg hk, if_neg (by omega)]

theorem load?_patched (hfit : start + new.length ≤ m.size) (hlo : lo ≤ hi) (hhi : hi ≤ new.length)
    {address : Nat} (hout : address < start + lo ∨ start + hi ≤ address) :
    (m.patched start new lo hi).load? address = m.load? address := by
  rw [load?, getElem?_patched hfit hlo hhi, if_neg (by omega), load?]

theorem store?_patched (hfit : start + new.length ≤ m.size) (hlo : lo ≤ hi) (hhi : hi ≤ new.length)
    {lo' hi' k : Nat} (hlo' : lo' ≤ hi') (hhi' : hi' ≤ new.length)
    (hmore : ∀ j, lo' ≤ j ∧ j < hi' ↔ (lo ≤ j ∧ j < hi) ∨ j = k) {b : Byte}
    (hb : new[k]? = some b) :
    (m.patched start new lo hi).store? (start + k) b = some (m.patched start new lo' hi') := by
  have hk : k < new.length := (List.getElem?_eq_some_iff.1 hb).1
  have hsize := size_patched hfit hlo hhi
  rw [store?, if_pos (by omega), Option.some.injEq, Memory.mk.injEq]
  apply List.ext_getElem?
  intro j
  rw [List.getElem?_set, getElem?_patched hfit hlo hhi, getElem?_patched hfit hlo' hhi']
  by_cases hj : start + k = j
  · have hin : start + lo' ≤ j ∧ j < start + hi' := by
      have := (hmore k).2 (.inr rfl)
      omega
    have hlen : start + k < (m.patched start new lo hi).bytes.length := by
      change start + k < (m.patched start new lo hi).size
      omega
    rw [if_pos hj, if_pos hlen, if_pos hin, ← hj, Nat.add_sub_cancel_left, hb]
  · have hsame : (start + lo ≤ j ∧ j < start + hi) ↔ (start + lo' ≤ j ∧ j < start + hi') := by
      have := hmore (j - start)
      omega
    simp only [if_neg hj, hsame]

end BulkMemory.Memory
