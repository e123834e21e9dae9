import BulkMemory.Proofs.Machine.Counting
import BulkMemory.Proofs.Machine.Window

/-!
# Filling byte by byte

`fillBytes` stores the low byte of a word at one address after the other. `fillBytes_ends` reduces a
call to a list of single stores, `writeAll_fill` runs through the patched memories of `Window` as long
as the range lies in the memory, and `fillBytes_call_eq_fill?` says that a call in bounds does what the
native instruction does.
-/

namespace BulkMemory.Machine
set_option autoImplicit false

open BulkMemory.Function Instr

/-- What `fillByte` writes in the round with the given counter. -/
def fillWrite (dest val i : Word) (m : Memory) : Option Memory :=
  m.store? (dest + i).toNat (val.setWidth 8)

/-- The locals of `fillBytes` other than its counter. -/
def fillParams (dest val len : Word) : List (String × Word) :=
  [("dest", dest), ("val", val), ("len", len)]

variable {dest val len : Word}

theorem fillParams_hasLength : HasLength (fillParams dest val len) len where
  lookup := rfl
  fresh := by simp [fillParams]

theorem fillByte_exec (rounds : Nat) (i : Word) (m : Memory) (stores : Nat) :
    fillByte.exec rounds (counting (fillParams dest val len) i m stores) =
      (counting (fillParams dest val len) i m stores).store (dest + i) val := by
  have hparams : HasLength (fillParams dest val len) len := fillParams_hasLength
  have hdest := computes_sum hparams "dest" rfl i
  have hval : Computes (fillParams dest val len ++ [("i", i)]) (localGet "val") val :=
    computes_localGet rfl
  rw [fillByte, exec, hdest rounds _ rfl, Ending.next_andThen, hval rounds _ rfl,
    Ending.next_andThen, State.popTwo_push_push]

theorem fillByte_writes : Writes (fillParams dest val len) fillByte (fillWrite dest val) where
  done := by
    intro rounds i m m' stores h
    rw [fillWrite] at h
    rw [fillByte_exec, counting_store, h]
  fault := by
    intro rounds i m stores h
    rw [fillWrite] at h
    rw [fillByte_exec, counting_store, h]
    exact ⟨_, rfl, rfl⟩

/-- A call stores the bytes of the range one by one, from the first to the last. -/
theorem fillBytes_ends (name : String) (dest val len : Word) (m : Memory) {rounds : Nat}
    (hrounds : len.toNat < rounds) :
    EndsAs ((fillBytes name).call rounds [dest, val, len] m)
      (fun m' => .next (counting (fillParams dest val len) len m' len.toNat))
      (writeAll (fillWrite dest val) (counters 0 len.toNat) m) := by
  have hparams : HasLength (fillParams dest val len) len := fillParams_hasLength
  have hloop := countUp_ends "done" "loop" hparams fillByte_writes (by decide) hrounds 0 m 0
  simp only [Nat.zero_add] at hloop
  exact EndsAs.call rfl hloop

/-- The memory after the first bytes of a range have been filled. -/
def filled (m : Memory) (dest val : Word) (len hi : Nat) : Memory :=
  m.patched dest.toNat (List.replicate len (val.setWidth 8)) 0 hi

theorem fillWrite_filled {m : Memory} (hm : m.size ≤ Memory.addressLimit) {count k : Nat}
    (hdest : dest.toNat + count ≤ m.size) (hk : k < count) :
    fillWrite dest val (BitVec.ofNat 32 k) (filled m dest val count k) =
      some (filled m dest val count (k + 1)) := by
  have hlen : (List.replicate count (val.setWidth 8)).length = count := List.length_replicate
  have hbyte : (List.replicate count (val.setWidth 8))[k]? = some (val.setWidth 8) := by
    rw [List.getElem?_replicate, if_pos hk]
  rw [fillWrite, toNat_add_ofNat (by omega) hm]
  exact Memory.store?_patched (by omega) (by omega) (by omega) (by omega) (by omega) (by omega) hbyte

/-- The stores for the first bytes of a range succeed if these lie in the memory, and then they fill
them. -/
theorem writeAll_fill {m : Memory} (hm : m.size ≤ Memory.addressLimit) {count : Nat}
    (hdest : dest.toNat + count ≤ m.size) :
    writeAll (fillWrite dest val) (counters 0 count) m = .ok (filled m dest val count count) := by
  have hstart : filled m dest val count 0 = m := m.patched_none ..
  have hall := writeAll_up (filled m dest val count) fun k hk => fillWrite_filled hm hdest hk
  rwa [hstart] at hall

theorem fill?_eq_filled {m : Memory} {count : Nat} (hdest : dest.toNat + count ≤ m.size) :
    m.fill? dest.toNat (val.setWidth 8) count = some (filled m dest val count count) := by
  rw [Memory.fill?, if_pos hdest, filled, m.patched_all _ List.length_replicate]

theorem getElem?_filled {m : Memory} {count : Nat} (hdest : dest.toNat + count ≤ m.size) (k : Nat) :
    (filled m dest val count count).bytes[k]? =
      if dest.toNat ≤ k ∧ k < dest.toNat + count then some (val.setWidth 8) else m.bytes[k]? := by
  have hlen : (List.replicate count (val.setWidth 8)).length = count := List.length_replicate
  rw [filled, Memory.getElem?_patched (by omega) (by omega) (by omega), Nat.add_zero]
  by_cases hk : dest.toNat ≤ k ∧ k < dest.toNat + count
  · rw [if_pos hk, if_pos hk, List.getElem?_replicate, if_pos (by omega)]
  · rw [if_neg hk, if_neg hk]

/-- A call whose range lies in the memory does what the native instruction does: each byte of the range
becomes the low byte of the value, and no other byte changes. It never begins more rounds than there
are bytes, and one to leave the loop. -/
theorem fillBytes_call_eq_fill? (name : String) (m : Memory) (dest val len : Word)
    (hm : m.size ≤ Memory.addressLimit) (hdest : dest.toNat + len.toNat ≤ m.size) :
    ∃ t, (∀ rounds, len.toNat < rounds → (fillBytes name).call rounds [dest, val, len] m = .next t) ∧
      m.fill? dest.toNat (val.setWidth 8) len.toNat = some t.memory ∧
      (∀ k < len.toNat, ∃ b, t.memory.bytes[dest.toNat + k]? = some b ∧ b.toNat = val.toNat % 256) ∧
      ∀ k, k < dest.toNat ∨ dest.toNat + len.toNat ≤ k → t.memory.bytes[k]? = m.bytes[k]? := by
  have hcall : ∀ rounds, len.toNat < rounds → (fillBytes name).call rounds [dest, val, len] m =
      .next (counting (fillParams dest val len) len (filled m dest val len.toNat len.toNat)
        len.toNat) := by
    intro rounds hrounds
    have hends := fillBytes_ends name dest val len m hrounds
    rw [writeAll_fill hm hdest] at hends
    exact hends
  refine ⟨_, hcall, fill?_eq_filled hdest, fun k hk => ?_, fun k hk => ?_⟩
  · refine ⟨val.setWidth 8, ?_, BitVec.toNat_setWidth 8 val⟩
    change (filled m dest val len.toNat len.toNat).bytes[dest.toNat + k]? = _
    rw [getElem?_filled hdest, if_pos (by omega)]
  · change (filled m dest val len.toNat len.toNat).bytes[k]? = _
    rw [getElem?_filled hdest, if_neg (by omega)]

/-- A fill up to the last byte of the memory, by a value wider than a byte. -/
theorem fillBytes_call_to_end :
    (⟨[1, 2, 3, 4]⟩ : Memory).size ≤ Memory.addressLimit ∧
      (1 : Word).toNat + (3 : Word).toNat ≤ (⟨[1, 2, 3, 4]⟩ : Memory).size ∧
      ∃ t, (fillBytes "memset").call 4 [1, 0x1FF, 3] ⟨[1, 2, 3, 4]⟩ = .next t ∧
        t.memory = ⟨[1, 255, 255, 255]⟩ := by
  refine ⟨by decide, by decide, ?_⟩
  obtain ⟨t, hcall, hfill, -⟩ := fillBytes_call_eq_fill? "memset" ⟨[1, 2, 3, 4]⟩ 1 0x1FF 3
    (by decide) (by decide)
  exact ⟨t, hcall 4 (by decide), (Option.some.inj hfill).symm⟩

end BulkMemory.Machine
