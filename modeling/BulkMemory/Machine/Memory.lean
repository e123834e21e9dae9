/-!
# Linear memory

A memory is a run of bytes with addresses from zero on. `copy?` and `fill?` are the bulk memory
instructions as a machine that knows them carries them out: all at once, and not at all where a
range leaves the memory. `getElem?_splice` says which bytes they change.
-/

namespace BulkMemory
set_option autoImplicit false

/-- A byte. -/
abbrev Byte := BitVec 8

/-- The bytes of a memory, in the order of their addresses. -/
structure Memory where
  bytes : List Byte
deriving DecidableEq, Repr, Inhabited

namespace Memory

/-- The number of bytes of a memory. -/
def size (m : Memory) : Nat := m.bytes.length

/-- The number of bytes that words can address. -/
def addressLimit : Nat := 65536 * 65536

/-- The byte at an address. -/
def load? (m : Memory) (address : Nat) : Option Byte := m.bytes[address]?

/-- Change the byte at an address. -/
def store? (m : Memory) (address : Nat) (value : Byte) : Option Memory :=
  if address < m.size then some ⟨m.bytes.set address value⟩ else none

/-- Put bytes in the place of those from an address on. -/
def splice (m : Memory) (start : Nat) (new : List Byte) : Memory :=
  ⟨m.bytes.take start ++ new ++ m.bytes.drop (start + new.length)⟩

/-- Copy `len` bytes from `src` to `dest`, as if they were all read before the first is written. -/
def copy? (m : Memory) (dest src len : Nat) : Option Memory :=
  if dest + len ≤ m.size ∧ src + len ≤ m.size then
    some (m.splice dest ((m.bytes.drop src).take len))
  else none

/-- Set the `len` bytes from `dest` on. -/
def fill? (m : Memory) (dest : Nat) (value : Byte) (len : Nat) : Option Memory :=
  if dest + len ≤ m.size then some (m.splice dest (List.replicate len value)) else none

theorem size_splice (m : Memory) (start : Nat) (new : List Byte)
    (h : start + new.length ≤ m.size) : (m.splice start new).size = m.size := by
  simp only [size, splice, List.length_append, List.length_take, List.length_drop] at h ⊢
  omega

/-- The new bytes stand from the start on, and all others are as they were. -/
theorem getElem?_splice (m : Memory) (start : Nat) (new : List Byte)
    (h : start + new.length ≤ m.size) (k : Nat) :
    (m.splice start new).bytes[k]? =
      if start ≤ k ∧ k < start + new.length then new[k - start]? else m.bytes[k]? := by
  have hstart : (m.bytes.take start).length = start := by
    simp only [size, List.length_take] at h ⊢
    omega
  rw [splice, List.append_assoc]
  by_cases hk : k < start
  · rw [List.getElem?_append_left (by omega), List.getElem?_take, if_pos hk, if_neg (by omega)]
  · rw [List.getElem?_append_right (by omega), hstart]
    by_cases hnew : k < start + new.length
    · rw [List.getElem?_append_left (by omega), if_pos ⟨by omega, hnew⟩]
    · rw [List.getElem?_append_right (by omega), List.getElem?_drop, if_neg (by omega)]
      congr 1
      omega

end Memory

end BulkMemory
