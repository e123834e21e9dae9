import BulkMemory.Proofs.Machine.Counting
import BulkMemory.Proofs.Machine.Window

/-!
# Copying byte by byte

`copyBytes` chooses the direction of its loop so that no byte of the source is overwritten before
it is read. `copyBytes_ends` reduces a call to a list of single copies, `writeAll_up` and
`writeAll_down` run through the patched memories of `Window`, and `copyBytes_call_eq_copy?` says
that a call in bounds does what the native instruction does.
-/

namespace BulkMemory.Machine
set_option autoImplicit false

open BulkMemory.Function Instr

/-- What `copyByte` writes in the round with the given counter. -/
def copyWrite (dest src i : Word) (m : Memory) : Option Memory :=
  (m.load? (src + i).toNat).bind fun b => m.store? (dest + i).toNat b

/-- The locals of `copyBytes` other than its counter. -/
def copyParams (dest src len : Word) : List (String × Word) :=
  [("dest", dest), ("src", src), ("len", len)]

variable {dest src len : Word}

theorem copyParams_hasLength : HasLength (copyParams dest src len) len where
  lookup := rfl
  fresh := by simp [copyParams]

theorem copyByte_exec (rounds : Nat) (i : Word) (m : Memory) (stores : Nat) :
    copyByte.exec rounds (counting (copyParams dest src len) i m stores) =
      match m.load? (src + i).toNat with
      | some b => (counting (copyParams dest src len) i m stores).store (dest + i) (b.setWidth 32)
      | none => .trap ((counting (copyParams dest src len) i m stores).push (dest + i)) := by
  have hparams : HasLength (copyParams dest src len) len := copyParams_hasLength
  have hdest := computes_sum hparams "dest" rfl i
  have hsrc := computes_sum hparams "src" rfl i
  rw [copyByte, exec, hdest rounds _ rfl, Ending.next_andThen, exec, hsrc rounds _ rfl,
    Ending.next_andThen, State.pop_push, State.load]
  change Ending.andThen (match m.load? (src + i).toNat with | some b => _ | none => _) _ = _
  cases m.load? (src + i).toNat with
  | some b => rfl
  | none => rfl

theorem setWidth_setWidth_byte (b : Byte) : (b.setWidth 32).setWidth 8 = b := by
  simp

theorem copyByte_writes : Writes (copyParams dest src len) copyByte (copyWrite dest src) where
  done := by
    intro rounds i m m' stores h
    obtain ⟨b, hload, hstore⟩ := Option.bind_eq_some_iff.1 h
    rw [copyByte_exec, hload]
    simp only [counting_store, setWidth_setWidth_byte, hstore]
  fault := by
    intro rounds i m stores h
    rw [copyByte_exec]
    cases hload : m.load? (src + i).toNat with
    | none => exact ⟨_, rfl, rfl⟩
    | some b =>
      rw [copyWrite, hload, Option.bind_some] at h
      simp only [counting_store, setWidth_setWidth_byte, h]
      exact ⟨_, rfl, rfl⟩

/-- A call copies the bytes of the range one by one, from the last to the first if the destination
is behind the source. -/
theorem copyBytes_ends (name : String) (dest src len : Word) (m : Memory) {rounds : Nat}
    (hrounds : len.toNat < rounds) :
    EndsAs ((copyBytes name).call rounds [dest, src, len] m)
      (fun m' => .next
        (counting (copyParams dest src len) (if src < dest then 0 else len) m' len.toNat))
      (writeAll (copyWrite dest src)
        (if src < dest then (counters 0 len.toNat).reverse else counters 0 len.toNat) m) := by
  have hparams : HasLength (copyParams dest src len) len := copyParams_hasLength
  have hcond : Computes (copyParams dest src len ++ [("i", 0)])
      (binary .gtU (localGet "dest") (localGet "src")) (if src < dest then 1 else 0) :=
    (computes_localGet rfl).binary .gtU (computes_localGet rfl)
  have hentry : (copyBytes name).entry [dest, src, len] m =
      counting (copyParams dest src len) 0 m 0 := rfl
  refine EndsAs.call rfl (EndsAs.exec_ifElse hcond rfl (fun _ => rfl) ?_)
  rw [hentry]
  by_cases hlt : src < dest
  · have hloop := countDown_ends "done_back" "loop_back" hparams copyByte_writes
      (by decide) hrounds 0 m 0
    simp only [Nat.zero_add] at hloop
    simp only [if_pos hlt]
    rw [if_neg (by decide), execAll, exec, Ending.next_andThen]
    exact hloop
  · have hloop := countUp_ends "done_fwd" "loop_fwd" hparams copyByte_writes
      (by decide) hrounds 0 m 0
    simp only [Nat.zero_add] at hloop
    simp only [if_neg hlt, if_true]
    rw [execAll, exec, Ending.next_andThen]
    exact hloop

/-- The memory after the bytes numbered from `lo` up to `hi` have been copied from the old memory. -/
def copied (m : Memory) (dest src len : Word) (lo hi : Nat) : Memory :=
  m.patched dest.toNat (m.range src.toNat len.toNat) lo hi

theorem copy?_eq_copied {m : Memory} (hdest : dest.toNat + len.toNat ≤ m.size)
    (hsrc : src.toNat + len.toNat ≤ m.size) :
    m.copy? dest.toNat src.toNat len.toNat = some (copied m dest src len 0 len.toNat) := by
  rw [Memory.copy?, if_pos ⟨hdest, hsrc⟩, copied, m.patched_all _ (Memory.length_range hsrc)]
  rfl

theorem getElem?_copied_all {m : Memory} (hdest : dest.toNat + len.toNat ≤ m.size)
    (hsrc : src.toNat + len.toNat ≤ m.size) (k : Nat) :
    (copied m dest src len 0 len.toNat).bytes[k]? =
      if dest.toNat ≤ k ∧ k < dest.toNat + len.toNat then m.bytes[src.toNat + (k - dest.toNat)]?
      else m.bytes[k]? := by
  have hlen := Memory.length_range hsrc
  rw [copied, Memory.getElem?_patched (by omega) (by omega) (by omega), Nat.add_zero]
  by_cases hk : dest.toNat ≤ k ∧ k < dest.toNat + len.toNat
  · rw [if_pos hk, if_pos hk, Memory.getElem?_range _ _ _ (by omega)]
  · rw [if_neg hk, if_neg hk]

section InBounds

variable {m : Memory} (hm : m.size ≤ Memory.addressLimit) (hdest : dest.toNat + len.toNat ≤ m.size)
  (hsrc : src.toNat + len.toNat ≤ m.size)
include hm hdest hsrc

/-- One more byte is copied if its source has not been overwritten yet. -/
theorem copyWrite_copied {lo hi lo' hi' k : Nat} (hk : k < len.toNat)
    (hlo : lo ≤ hi) (hhi : hi ≤ len.toNat) (hlo' : lo' ≤ hi') (hhi' : hi' ≤ len.toNat)
    (hmore : ∀ j, lo' ≤ j ∧ j < hi' ↔ (lo ≤ j ∧ j < hi) ∨ j = k)
    (hold : src.toNat + k < dest.toNat + lo ∨ dest.toNat + hi ≤ src.toNat + k) :
    copyWrite dest src (BitVec.ofNat 32 k) (copied m dest src len lo hi) =
      some (copied m dest src len lo' hi') := by
  have hlen := Memory.length_range hsrc
  have hbyte := m.getElem?_range src.toNat len.toNat hk
  obtain ⟨b, hb⟩ : ∃ b, (m.range src.toNat len.toNat)[k]? = some b :=
    ⟨_, List.getElem?_eq_getElem (by omega)⟩
  have hread : (copied m dest src len lo hi).load? (src.toNat + k) = some b := by
    rw [copied, Memory.load?_patched (by omega) hlo (by omega) hold, Memory.load?, ← hbyte, hb]
  rw [copyWrite, toNat_add_ofNat (by omega) hm, toNat_add_ofNat (by omega) hm, hread, Option.bind_some]
  exact Memory.store?_patched (by omega) hlo (by omega) hlo' (by omega) hmore hb

/-- Upwards the source is ahead of what has been written. -/
theorem writeAll_copy_up (hle : dest.toNat ≤ src.toNat) :
    writeAll (copyWrite dest src) (counters 0 len.toNat) m =
      .ok (copied m dest src len 0 len.toNat) := by
  have hstart : copied m dest src len 0 0 = m := m.patched_none ..
  have hall := writeAll_up (fun k => copied m dest src len 0 k) (n := len.toNat) fun k hk =>
      copyWrite_copied hm hdest hsrc hk (by omega) (by omega) (by omega) hk (by omega) (by omega)
  rwa [hstart] at hall

/-- Downwards the source is below what has been written. -/
theorem writeAll_copy_down (hlt : src.toNat < dest.toNat) :
    writeAll (copyWrite dest src) (counters 0 len.toNat).reverse m =
      .ok (copied m dest src len 0 len.toNat) := by
  have hstart : copied m dest src len len.toNat len.toNat = m := m.patched_none ..
  have hall := writeAll_down (fun k => copied m dest src len k len.toNat) (n := len.toNat) fun k hk =>
      copyWrite_copied hm hdest hsrc hk hk (by omega) (by omega) (by omega) (by omega) (by omega)
  rwa [hstart] at hall

/-- The copies of a call in bounds all succeed, in the direction that the call takes. -/
theorem copyBytes_call_copied (name : String) :
    ∃ i, ∀ rounds, len.toNat < rounds →
      (copyBytes name).call rounds [dest, src, len] m =
        .next (counting (copyParams dest src len) i (copied m dest src len 0 len.toNat) len.toNat) := by
  refine ⟨if src < dest then 0 else len, fun rounds hrounds => ?_⟩
  have hcall := copyBytes_ends name dest src len m hrounds
  by_cases hlt : src < dest
  · rw [if_pos hlt, if_pos hlt, writeAll_copy_down hm hdest hsrc hlt] at hcall
    rw [if_pos hlt]
    exact hcall
  · rw [if_neg hlt, if_neg hlt, writeAll_copy_up hm hdest hsrc (Nat.le_of_not_lt hlt)] at hcall
    rw [if_neg hlt]
    exact hcall

end InBounds

/-- A call whose ranges lie in the memory does what the native instruction does: each byte of the
destination becomes the old byte of the source, however the ranges overlap, and no other byte
changes. It never begins more rounds than there are bytes, and one to leave the loop. -/
theorem copyBytes_call_eq_copy? (name : String) (m : Memory) (dest src len : Word)
    (hm : m.size ≤ Memory.addressLimit) (hdest : dest.toNat + len.toNat ≤ m.size)
    (hsrc : src.toNat + len.toNat ≤ m.size) :
    ∃ t, (∀ rounds, len.toNat < rounds → (copyBytes name).call rounds [dest, src, len] m = .next t) ∧
      m.copy? dest.toNat src.toNat len.toNat = some t.memory ∧
      (∀ k < len.toNat, t.memory.bytes[dest.toNat + k]? = m.bytes[src.toNat + k]?) ∧
      ∀ k, k < dest.toNat ∨ dest.toNat + len.toNat ≤ k → t.memory.bytes[k]? = m.bytes[k]? := by
  obtain ⟨i, hcall⟩ := copyBytes_call_copied hm hdest hsrc name
  refine ⟨_, hcall, copy?_eq_copied hdest hsrc, fun k hk => ?_, fun k hk => ?_⟩
  · change (copied m dest src len 0 len.toNat).bytes[dest.toNat + k]? = _
    rw [getElem?_copied_all hdest hsrc, if_pos (by omega), Nat.add_sub_cancel_left]
  · change (copied m dest src len 0 len.toNat).bytes[k]? = _
    rw [getElem?_copied_all hdest hsrc, if_neg (by omega)]

/-- A copy over itself towards higher addresses, up to the last byte of the memory. -/
theorem copyBytes_call_overlapping :
    (⟨[1, 2, 3, 4, 5]⟩ : Memory).size ≤ Memory.addressLimit ∧
      (1 : Word).toNat + (4 : Word).toNat ≤ (⟨[1, 2, 3, 4, 5]⟩ : Memory).size ∧
      (0 : Word).toNat + (4 : Word).toNat ≤ (⟨[1, 2, 3, 4, 5]⟩ : Memory).size ∧
      ∃ t, (copyBytes "memcpy").call 5 [1, 0, 4] ⟨[1, 2, 3, 4, 5]⟩ = .next t ∧
        t.memory = ⟨[1, 1, 2, 3, 4]⟩ := by
  refine ⟨by decide, by decide, by decide, ?_⟩
  obtain ⟨t, hcall, hcopy, -⟩ := copyBytes_call_eq_copy? "memcpy" ⟨[1, 2, 3, 4, 5]⟩ 1 0 4
    (by decide) (by decide) (by decide)
  exact ⟨t, hcall 5 (by decide), (Option.some.inj hcopy).symm⟩

end BulkMemory.Machine
