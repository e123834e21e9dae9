import BulkMemory.Proofs.Machine.Traps

/-!
# What a call leaves behind where the native instruction traps

The native instructions check their ranges before they write; the routines do not, and meet the end
of the memory in the middle of their work. `CopyFault` and `FillFault` say what a call does then:
upwards it has written every byte in front of the end, downwards none, unless its addresses wrap
around. Where there is nothing to write, or no address outside the memory, it does not trap at all.
-/

namespace BulkMemory.Machine
set_option autoImplicit false

open BulkMemory.Function

variable {write : Word → Memory → Option Memory} {dest src val len : Word} {m m' : Memory}

/-! ### Bytes that are not written -/

/-- Writes leave every byte alone that is at none of their addresses. -/
theorem getElem?_writeAll {address : Word → Nat}
    (h : ∀ i m m' k, write i m = some m' → k ≠ address i → m'.bytes[k]? = m.bytes[k]?)
    {is : List Word} (hok : writeAll write is m = .ok m') {k : Nat}
    (hk : ∀ i ∈ is, k ≠ address i) : m'.bytes[k]? = m.bytes[k]? := by
  induction is generalizing m with
  | nil =>
    cases hok
    rfl
  | cons i is ih =>
    rw [writeAll] at hok
    cases hwrite : write i m with
    | none =>
      rw [hwrite] at hok
      cases hok
    | some m₁ =>
      rw [hwrite] at hok
      rw [ih hok fun j hj => hk j (List.mem_cons_of_mem i hj),
        h i m m₁ k hwrite (hk i List.mem_cons_self)]

theorem getElem?_copyWrite (dest src i : Word) (m m' : Memory) (k : Nat)
    (h : copyWrite dest src i m = some m') (hk : k ≠ (dest + i).toNat) :
    m'.bytes[k]? = m.bytes[k]? := by
  obtain ⟨b, -, hstore⟩ := Option.bind_eq_some_iff.1 h
  exact Memory.getElem?_of_store? hstore hk

theorem getElem?_fillWrite (dest val i : Word) (m m' : Memory) (k : Nat)
    (h : fillWrite dest val i m = some m') (hk : k ≠ (dest + i).toNat) :
    m'.bytes[k]? = m.bytes[k]? := Memory.getElem?_of_store? h hk

theorem toNat_add_ofNat_mod (w : Word) (k : Nat) :
    (w + BitVec.ofNat 32 k).toNat = (w.toNat + k) % Memory.addressLimit := by
  rw [BitVec.toNat_add, BitVec.toNat_ofNat, Memory.addressLimit]
  omega

/-- An address that is none of a range is written in no round. -/
theorem ne_address_of_mem_counters {count k : Nat}
    (hk : ∀ i < count, k ≠ (dest.toNat + i) % Memory.addressLimit) :
    ∀ i ∈ counters 0 count, k ≠ (dest + i).toNat := by
  intro i hi
  obtain ⟨j, hj, rfl⟩ := mem_counters.1 hi
  rw [toNat_add_ofNat_mod]
  exact hk j (by omega)

/-! ### Upwards to the end of the memory -/

theorem counters_add (start a b : Nat) :
    counters start (a + b) = counters start a ++ counters (start + a) b := by
  simp [counters, ← List.map_append, List.range'_append_1]

/-- The counters up to some value, the value itself, and those above it. -/
theorem counters_eq_append_cons {count k : Nat} (hk : k < count) :
    counters 0 count = counters 0 k ++ BitVec.ofNat 32 k :: counters (k + 1) (count - (k + 1)) := by
  obtain ⟨rest, rfl⟩ : ∃ rest, count = k + (rest + 1) := ⟨count - (k + 1), by omega⟩
  rw [counters_add, counters_succ, Nat.zero_add, show k + (rest + 1) - (k + 1) = rest by omega]

/-- A byte outside the memory, as the end of the memory or behind it. -/
theorem outside_of_end {w : Word} {k : Nat} (hm : m.size < Memory.addressLimit)
    (hk : k = m.size - w.toNat) : m.size ≤ (w + BitVec.ofNat 32 k).toNat := by
  have hw : w.toNat < Memory.addressLimit := w.isLt
  rw [toNat_add_ofNat (show w.toNat + k < Memory.addressLimit by omega) (Nat.le_refl _)]
  omega

/-- A fill that does not fit has filled the memory up to its end. -/
theorem writeAll_fill_over (hm : m.size < Memory.addressLimit) (hpos : 0 < len.toNat)
    (hout : m.size < dest.toNat + len.toNat) :
    ∃ m', writeAll (fillWrite dest val) (counters 0 len.toNat) m = .error m' ∧
      ∀ k, m'.bytes[k]? =
        if dest.toNat ≤ k ∧ k < m.size then some (val.setWidth 8) else m.bytes[k]? := by
  have hfails := fillWrite_failsAt dest val m.size
  have hbad : m.size ≤ (dest + BitVec.ofNat 32 (m.size - dest.toNat)).toNat := outside_of_end hm rfl
  rw [counters_eq_append_cons (show m.size - dest.toNat < len.toNat by omega)]
  by_cases hin : dest.toNat ≤ m.size
  · have hfit : dest.toNat + (m.size - dest.toNat) ≤ m.size := by omega
    have hok : writeAll (fillWrite dest val) (counters 0 (m.size - dest.toNat)) m = _ :=
      writeAll_fill (Nat.le_of_lt hm) hfit
    have hsize : (filled m dest val (m.size - dest.toNat) (m.size - dest.toNat)).size = m.size :=
      Memory.size_patched (by rw [List.length_replicate]; omega) (by omega) (by simp)
    refine ⟨_, hfails.writeAll_append_cons hok hsize hbad _, fun k => ?_⟩
    rw [getElem?_filled hfit, show dest.toNat + (m.size - dest.toNat) = m.size by omega]
  · have hnone : m.size - dest.toNat = 0 := by omega
    rw [hnone] at hbad ⊢
    refine ⟨m, hfails.writeAll_append_cons rfl rfl hbad _, fun k => ?_⟩
    rw [if_neg (by omega)]

/-- A copy upwards that does not fit has copied as many bytes as its source holds. -/
theorem writeAll_copy_over (hm : m.size < Memory.addressLimit) (hpos : 0 < len.toNat)
    (hle : dest.toNat ≤ src.toNat) (hout : m.size < src.toNat + len.toNat) :
    ∃ m', writeAll (copyWrite dest src) (counters 0 len.toNat) m = .error m' ∧
      ∀ k, m'.bytes[k]? =
        if dest.toNat ≤ k ∧ k < dest.toNat + (m.size - src.toNat) then
          m.bytes[src.toNat + (k - dest.toNat)]?
        else m.bytes[k]? := by
  have hfails := copyWrite_failsAt dest src m.size
  have hbad : m.size ≤ (src + BitVec.ofNat 32 (m.size - src.toNat)).toNat := outside_of_end hm rfl
  rw [counters_eq_append_cons (show m.size - src.toNat < len.toNat by omega)]
  by_cases hin : src.toNat ≤ m.size
  · -- a shorter copy of which both ranges lie in the memory
    obtain ⟨short, hshort⟩ : ∃ short : Word, short.toNat = m.size - src.toNat :=
      ⟨BitVec.ofNat 32 (m.size - src.toNat), by
        rw [BitVec.toNat_ofNat]
        rw [Memory.addressLimit] at hm
        omega⟩
    rw [← hshort] at hbad ⊢
    have hdest : dest.toNat + short.toNat ≤ m.size := by omega
    have hsrc : src.toNat + short.toNat ≤ m.size := by omega
    have hok := writeAll_copy_up (Nat.le_of_lt hm) hdest hsrc hle
    have hlen := Memory.length_range hsrc
    have hsize : (copied m dest src short 0 short.toNat).size = m.size :=
      Memory.size_patched (by omega) (by omega) (by omega)
    exact ⟨_, hfails.writeAll_append_cons hok hsize (.inr hbad) _, getElem?_copied_all hdest hsrc⟩
  · have hnone : m.size - src.toNat = 0 := by omega
    rw [hnone] at hbad ⊢
    refine ⟨m, hfails.writeAll_append_cons rfl rfl (.inr hbad) _, fun k => ?_⟩
    rw [if_neg (by omega)]

/-! ### Downwards from the end of the range -/

/-- A copy downwards begins with its last byte, and stops there if that has an address of its own. -/
theorem writeAll_copy_down_over (hpos : 0 < len.toNat) (hout : m.size < dest.toNat + len.toNat)
    (hlimit : dest.toNat + len.toNat ≤ Memory.addressLimit) :
    writeAll (copyWrite dest src) (counters 0 len.toNat).reverse m = .error m := by
  obtain ⟨n, hn⟩ : ∃ n, len.toNat = n + 1 := ⟨len.toNat - 1, by omega⟩
  have hbad : m.size ≤ (dest + BitVec.ofNat 32 n).toNat := by
    rw [toNat_add_ofNat (show dest.toNat + n < Memory.addressLimit by omega) (Nat.le_refl _)]
    omega
  rw [hn, reverse_counters_succ, writeAll,
    ((copyWrite_failsAt dest src m.size).none_iff _ m rfl).2 (.inl hbad)]

/-- A copy downwards whose addresses wrap around stops at the last address at the latest, and until
then it writes below the number of addresses that have wrapped around. -/
theorem writeAll_copy_down_wrapping (hm : m.size < Memory.addressLimit)
    (hwrap : Memory.addressLimit < dest.toNat + len.toNat) :
    ∃ m', writeAll (copyWrite dest src) (counters 0 len.toNat).reverse m = .error m' ∧
      ∀ k, dest.toNat + len.toNat - Memory.addressLimit ≤ k → m'.bytes[k]? = m.bytes[k]? := by
  have hdest : dest.toNat < Memory.addressLimit := dest.isLt
  have hlen : len.toNat < Memory.addressLimit := len.isLt
  -- the counter of the last address
  obtain ⟨c, hc⟩ : ∃ c, dest.toNat + c + 1 = Memory.addressLimit :=
    ⟨Memory.addressLimit - 1 - dest.toNat, by omega⟩
  have hbad : m.size ≤ (dest + BitVec.ofNat 32 c).toNat := by
    rw [toNat_add_ofNat (show dest.toNat + c < Memory.addressLimit by omega) (Nat.le_refl _)]
    omega
  obtain ⟨before, m', hsub, hok, herror⟩ :=
    (copyWrite_failsAt dest src m.size).exists_writeAll_eq_error
      (counters (c + 1) (len.toNat - (c + 1))).reverse rfl (.inl hbad) (counters 0 c).reverse
  refine ⟨m', ?_, fun k hk => ?_⟩
  · rw [counters_eq_append_cons (show c < len.toNat by omega)]
    simpa using herror
  · refine getElem?_writeAll (getElem?_copyWrite dest src) hok fun i hi => ?_
    obtain ⟨j, hj, rfl⟩ := mem_counters.1 (List.mem_reverse.1 (hsub hi))
    rw [toNat_add_ofNat_mod, Nat.mod_eq_sub_mod (by omega), Nat.mod_eq_of_lt (by omega)]
    omega

/-! ### Calls -/

/-- What a copy does where the native instruction traps. -/
structure CopyFault (m : Memory) (dest src len : Word) (ending : Ending) : Prop where
  /-- Without a byte to copy it does not trap, and changes nothing. -/
  empty : len = 0 → ∃ t, ending = .next t ∧ t.memory = m
  /-- Where every address lies in the memory it does not trap, and writes to the addresses of its
  range modulo their number. -/
  full : m.size = Memory.addressLimit → ∃ t, ending = .next t ∧
    ∀ k, (∀ i < len.toNat, k ≠ (dest.toNat + i) % Memory.addressLimit) →
      t.memory.bytes[k]? = m.bytes[k]?
  /-- Else it traps. Upwards it has copied the bytes up to the end of the memory. -/
  upwards : 0 < len.toNat → m.size < Memory.addressLimit → dest.toNat ≤ src.toNat →
    ∃ t, ending = .trap t ∧ ∀ k, t.memory.bytes[k]? =
      if dest.toNat ≤ k ∧ k < dest.toNat + (m.size - src.toNat) then
        m.bytes[src.toNat + (k - dest.toNat)]?
      else m.bytes[k]?
  /-- Downwards it has changed nothing. -/
  downwards : 0 < len.toNat → m.size < Memory.addressLimit → src.toNat < dest.toNat →
    dest.toNat + len.toNat ≤ Memory.addressLimit → ∃ t, ending = .trap t ∧ t.memory = m
  /-- Downwards from an address that has wrapped around, it has changed such bytes at most. -/
  wrapping : m.size < Memory.addressLimit → src.toNat < dest.toNat →
    Memory.addressLimit < dest.toNat + len.toNat → ∃ t, ending = .trap t ∧
      ∀ k, dest.toNat + len.toNat - Memory.addressLimit ≤ k → t.memory.bytes[k]? = m.bytes[k]?

/-- What a fill does where the native instruction traps. -/
structure FillFault (m : Memory) (dest val len : Word) (ending : Ending) : Prop where
  /-- Without a byte to fill it does not trap, and changes nothing. -/
  empty : len = 0 → ∃ t, ending = .next t ∧ t.memory = m
  /-- Where every address lies in the memory it does not trap, and writes to the addresses of its
  range modulo their number. -/
  full : m.size = Memory.addressLimit → ∃ t, ending = .next t ∧
    ∀ k, (∀ i < len.toNat, k ≠ (dest.toNat + i) % Memory.addressLimit) →
      t.memory.bytes[k]? = m.bytes[k]?
  /-- Else it traps, and has filled the bytes up to the end of the memory. -/
  upwards : 0 < len.toNat → m.size < Memory.addressLimit →
    ∃ t, ending = .trap t ∧ ∀ k, t.memory.bytes[k]? =
      if dest.toNat ≤ k ∧ k < m.size then some (val.setWidth 8) else m.bytes[k]?

theorem copyFault {ending : Ending} {behind : Memory → State}
    (hbehind : ∀ m', (behind m').memory = m')
    (hends : EndsAs ending (fun m' => .next (behind m'))
      (writeAll (copyWrite dest src)
        (if src < dest then (counters 0 len.toNat).reverse else counters 0 len.toNat) m))
    (htrap : m.copy? dest.toNat src.toNat len.toNat = none) : CopyFault m dest src len ending where
  empty := by
    rintro rfl
    rw [writeAll_copy_zero] at hends
    exact ⟨_, hends, hbehind m⟩
  full := by
    intro hm
    have hgood (i : Word) : ¬ (m.size ≤ (dest + i).toNat ∨ m.size ≤ (src + i).toNat) := by
      have hdest : (dest + i).toNat < Memory.addressLimit := (dest + i).isLt
      have hsrc : (src + i).toNat < Memory.addressLimit := (src + i).isLt
      omega
    generalize hwrites : writeAll (copyWrite dest src) _ m = result at hends
    obtain ⟨m', hok, -⟩ := (copyWrite_failsAt dest src m.size).writeAll_eq_ok rfl fun i _ => hgood i
    obtain rfl : .ok m' = result := hok.symm.trans hwrites
    refine ⟨_, hends, fun k hk => ?_⟩
    rw [hbehind]
    refine getElem?_writeAll (getElem?_copyWrite dest src) hok fun i hi => ?_
    exact ne_address_of_mem_counters hk i ((mem_order _).1 hi)
  upwards := by
    intro hpos hm hle
    have hout : m.size < src.toNat + len.toNat := by
      have := copy?_eq_none_iff.1 htrap
      omega
    obtain ⟨m', herror, hbytes⟩ := writeAll_copy_over hm hpos hle hout
    rw [if_neg (by rw [BitVec.lt_def]; omega), herror] at hends
    obtain ⟨t, ht, rfl⟩ := hends
    exact ⟨t, ht, hbytes⟩
  downwards := by
    intro hpos hm hlt hlimit
    have hout : m.size < dest.toNat + len.toNat := by
      have := copy?_eq_none_iff.1 htrap
      omega
    rw [if_pos (BitVec.lt_def.2 hlt), writeAll_copy_down_over hpos hout hlimit] at hends
    exact hends
  wrapping := by
    intro hm hlt hwrap
    obtain ⟨m', herror, hbytes⟩ := writeAll_copy_down_wrapping hm hwrap
    rw [if_pos (BitVec.lt_def.2 hlt), herror] at hends
    obtain ⟨t, ht, rfl⟩ := hends
    exact ⟨t, ht, hbytes⟩

theorem fillFault {ending : Ending} {behind : Memory → State}
    (hbehind : ∀ m', (behind m').memory = m')
    (hends : EndsAs ending (fun m' => .next (behind m'))
      (writeAll (fillWrite dest val) (counters 0 len.toNat) m))
    (htrap : m.fill? dest.toNat (val.setWidth 8) len.toNat = none) :
    FillFault m dest val len ending where
  empty := by
    rintro rfl
    exact ⟨_, hends, hbehind m⟩
  full := by
    intro hm
    have hgood (i : Word) : ¬ m.size ≤ (dest + i).toNat := by
      have hdest : (dest + i).toNat < Memory.addressLimit := (dest + i).isLt
      omega
    generalize hwrites : writeAll (fillWrite dest val) _ m = result at hends
    obtain ⟨m', hok, -⟩ := (fillWrite_failsAt dest val m.size).writeAll_eq_ok rfl fun i _ => hgood i
    obtain rfl : .ok m' = result := hok.symm.trans hwrites
    refine ⟨_, hends, fun k hk => ?_⟩
    rw [hbehind]
    exact getElem?_writeAll (getElem?_fillWrite dest val) hok (ne_address_of_mem_counters hk)
  upwards := by
    intro hpos hm
    obtain ⟨m', herror, hbytes⟩ := writeAll_fill_over hm hpos (fill?_eq_none_iff.1 htrap)
    rw [herror] at hends
    obtain ⟨t, ht, rfl⟩ := hends
    exact ⟨t, ht, hbytes⟩

theorem copyBytes_fault (name : String) (htrap : m.copy? dest.toNat src.toNat len.toNat = none) :
    ∃ ending, EndsWithin (copyBytes name) [dest, src, len] m len.toNat ending ∧
      CopyFault m dest src len ending := by
  obtain ⟨ending, hcall, hends⟩ := copyBytes_endsWithin name dest src len m
  exact ⟨ending, hcall, copyFault (fun _ => rfl) hends htrap⟩

theorem fillBytes_fault (name : String)
    (htrap : m.fill? dest.toNat (val.setWidth 8) len.toNat = none) :
    ∃ ending, EndsWithin (fillBytes name) [dest, val, len] m len.toNat ending ∧
      FillFault m dest val len ending := by
  obtain ⟨ending, hcall, hends⟩ := fillBytes_endsWithin name dest val len m
  exact ⟨ending, hcall, fillFault (fun _ => rfl) hends htrap⟩

/-- Neither do the routines always trap where the native instructions do, nor do they always leave
the memory as it was: a fill over the end of the memory fills what it reaches, a copy whose addresses
wrap around writes far below its range, a fill of no bytes behind the end does not trap, and neither
does any fill of a memory with all addresses. -/
theorem native_trap_differs :
    ((⟨[0]⟩ : Memory).fill? 0 7 2 = none ∧
      ∃ t, (fillBytes "memset").call 3 [0, 7, 2] ⟨[0]⟩ = .trap t ∧ t.memory = ⟨[7]⟩) ∧
    ((⟨[1, 2, 3, 4]⟩ : Memory).copy? 0xFFFFFFFF 1 3 = none ∧
      ∃ t, (copyBytes "memcpy").call 4 [0xFFFFFFFF, 1, 3] ⟨[1, 2, 3, 4]⟩ = .trap t ∧
        t.memory = ⟨[3, 4, 3, 4]⟩) ∧
    ((⟨[]⟩ : Memory).fill? 1 7 0 = none ∧
      ∃ t, (fillBytes "memset").call 1 [1, 7, 0] ⟨[]⟩ = .next t) ∧
    (⟨List.replicate Memory.addressLimit 0⟩ : Memory).fill? 0xFFFFFFFF 7 2 = none ∧
      ∃ t, (fillBytes "memset").call 3 [0xFFFFFFFF, 7, 2]
        ⟨List.replicate Memory.addressLimit 0⟩ = .next t := by
  have hsize : (⟨List.replicate Memory.addressLimit 0⟩ : Memory).size = Memory.addressLimit :=
    List.length_replicate
  have htrap : (⟨List.replicate Memory.addressLimit 0⟩ : Memory).fill? (0xFFFFFFFF : Word).toNat
      ((7 : Word).setWidth 8) (2 : Word).toNat = none := by
    rw [fill?_eq_none_iff, hsize]
    decide
  obtain ⟨ending, hcall, hfault⟩ := fillBytes_fault "memset" htrap
  obtain ⟨t, ht, -⟩ := hfault.full hsize
  refine ⟨⟨rfl, _, rfl, rfl⟩, ⟨rfl, _, rfl, rfl⟩, ⟨rfl, _, rfl⟩, ?_, t, ?_⟩
  · rw [fill?_eq_none_iff, hsize]
    decide
  · rw [hcall.settled 3 (by decide), ht]

/-- What calls of the routines do where the native instructions trap. -/
theorem call_of_native_trap (name : String) (m : Memory) (dest src val len : Word) :
    (m.copy? dest.toNat src.toNat len.toNat = none →
      ∃ ending, EndsWithin (copyBytes name) [dest, src, len] m len.toNat ending ∧
        CopyFault m dest src len ending) ∧
    (m.fill? dest.toNat (val.setWidth 8) len.toNat = none →
      ∃ ending, EndsWithin (fillBytes name) [dest, val, len] m len.toNat ending ∧
        FillFault m dest val len ending) :=
  ⟨copyBytes_fault name, fillBytes_fault name⟩

/-- A copy upwards and a fill that both reach the end of the memory in their second round. -/
theorem call_of_native_trap_at_end :
    ((⟨[1, 2, 3]⟩ : Memory).copy? 0 2 2 = none ∧
      ∃ t, (copyBytes "memcpy").call 3 [0, 2, 2] ⟨[1, 2, 3]⟩ = .trap t ∧
        t.memory.bytes[0]? = some 3) ∧
    ((⟨[1, 2, 3]⟩ : Memory).fill? 2 7 2 = none ∧
      ∃ t, (fillBytes "memset").call 3 [2, 7, 2] ⟨[1, 2, 3]⟩ = .trap t ∧
        t.memory.bytes[2]? = some 7) := by
  have hcopy : (⟨[1, 2, 3]⟩ : Memory).copy? 0 2 2 = none := rfl
  have hfill : (⟨[1, 2, 3]⟩ : Memory).fill? 2 7 2 = none := rfl
  obtain ⟨copying, hcopying, hcopied⟩ := (call_of_native_trap "memcpy" ⟨[1, 2, 3]⟩ 0 2 7 2).1 hcopy
  obtain ⟨filling, hfilling, hfilled⟩ := (call_of_native_trap "memset" ⟨[1, 2, 3]⟩ 2 0 7 2).2 hfill
  obtain ⟨t, ht, htbytes⟩ := hcopied.upwards (by decide) (by decide) (by decide)
  obtain ⟨s, hs, hsbytes⟩ := hfilled.upwards (by decide) (by decide)
  exact ⟨⟨hcopy, t, (hcopying.settled 3 (by decide)).trans ht, htbytes 0⟩,
    ⟨hfill, s, (hfilling.settled 3 (by decide)).trans hs, hsbytes 2⟩⟩

end BulkMemory.Machine
