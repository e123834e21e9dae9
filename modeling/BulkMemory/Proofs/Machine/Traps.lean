import BulkMemory.Proofs.Machine.Bounds

/-!
# When a call traps

A call of a routine is over after as many rounds as there are bytes, and one more to leave the loop
(`EndsWithin`). It traps if and only if one of its writes fails, so in a memory that does not have
all addresses it traps exactly where the native instruction does, as soon as there is a byte to
write (`call_traps_iff`).
-/

namespace BulkMemory.Machine
set_option autoImplicit false

open BulkMemory.Function

/-- A call is over in the same way under every bound above `len`: by a trap, or by its end after
`len` stores. As the last round that begins either leaves the loop or traps, no more than `len`
rounds are completed. -/
structure EndsWithin (f : Function) (arguments : List Word) (m : Memory) (len : Nat)
    (ending : Ending) : Prop where
  settled : ∀ rounds, len < rounds → f.call rounds arguments m = ending
  finished : (∃ t, ending = .next t ∧ t.stores = len) ∨ ∃ t, ending = .trap t

section Calls

variable {f : Function} {arguments : List Word} {m : Memory} {len : Nat} {behind : Memory → State}
  {result : Except Memory Memory}

theorem EndsAs.ne_unfinished {ending : Ending}
    (h : EndsAs ending (fun m' => .next (behind m')) result) : ending ≠ .unfinished := by
  cases result with
  | ok m' =>
    have hnext : ending = .next (behind m') := h
    rw [hnext]
    nofun
  | error m' =>
    obtain ⟨t, htrap, -⟩ := h
    rw [htrap]
    nofun

theorem EndsAs.traps_iff {ending : Ending}
    (h : EndsAs ending (fun m' => .next (behind m')) result) :
    (∃ t, ending = .trap t) ↔ ∃ m', result = .error m' := by
  cases result with
  | ok m' =>
    have hnext : ending = .next (behind m') := h
    rw [hnext]
    exact ⟨nofun, nofun⟩
  | error m' =>
    obtain ⟨t, htrap, -⟩ := h
    exact ⟨fun _ => ⟨m', rfl⟩, fun _ => ⟨t, htrap⟩⟩

/-- A call that ends as some writes do under every large bound ends in one way under all of them. -/
theorem exists_endsWithin (hstores : ∀ m', (behind m').stores = len)
    (h : ∀ rounds, len < rounds →
      EndsAs (f.call rounds arguments m) (fun m' => .next (behind m')) result) :
    ∃ ending, EndsWithin f arguments m len ending ∧
      EndsAs ending (fun m' => .next (behind m')) result := by
  have hfirst := h (len + 1) (Nat.lt_succ_self len)
  refine ⟨f.call (len + 1) arguments m, ⟨fun rounds hrounds => ?_, ?_⟩, hfirst⟩
  · exact Function.call_eq_of_le hfirst.ne_unfinished hrounds
  · cases result with
    | ok m' => exact .inl ⟨behind m', hfirst, hstores m'⟩
    | error m' =>
      obtain ⟨t, htrap, -⟩ := hfirst
      exact .inr ⟨t, htrap⟩

end Calls

variable {dest src val len : Word} {m : Memory}

theorem copyBytes_endsWithin (name : String) (dest src len : Word) (m : Memory) :
    ∃ ending, EndsWithin (copyBytes name) [dest, src, len] m len.toNat ending ∧
      EndsAs ending
        (fun m' => .next
          (counting (copyParams dest src len) (if src < dest then 0 else len) m' len.toNat))
        (writeAll (copyWrite dest src)
          (if src < dest then (counters 0 len.toNat).reverse else counters 0 len.toNat) m) :=
  exists_endsWithin (fun _ => rfl) fun _ hrounds => copyBytes_ends name dest src len m hrounds

theorem fillBytes_endsWithin (name : String) (dest val len : Word) (m : Memory) :
    ∃ ending, EndsWithin (fillBytes name) [dest, val, len] m len.toNat ending ∧
      EndsAs ending (fun m' => .next (counting (fillParams dest val len) len m' len.toNat))
        (writeAll (fillWrite dest val) (counters 0 len.toNat) m) :=
  exists_endsWithin (fun _ => rfl) fun _ hrounds => fillBytes_ends name dest val len m hrounds

theorem copy?_eq_none_iff {dest src len : Nat} :
    m.copy? dest src len = none ↔ m.size < dest + len ∨ m.size < src + len := by
  rw [Memory.copy?]
  split
  · simp only [reduceCtorEq, false_iff]
    omega
  · simp only [true_iff]
    omega

theorem fill?_eq_none_iff {dest len : Nat} {b : Byte} :
    m.fill? dest b len = none ↔ m.size < dest + len := by
  rw [Memory.fill?]
  split
  · simp only [reduceCtorEq, false_iff]
    omega
  · simp only [true_iff]
    omega

theorem mem_order {i : Word} {is : List Word} (p : Prop) [Decidable p] :
    i ∈ (if p then is.reverse else is) ↔ i ∈ is := by
  split
  · exact List.mem_reverse
  · rfl

theorem writeAll_copy_zero (dest src : Word) (m : Memory) :
    writeAll (copyWrite dest src)
      (if src < dest then (counters 0 (0 : Word).toNat).reverse else counters 0 (0 : Word).toNat) m =
        .ok m := by
  split <;> rfl

theorem writeAll_copy_eq_error_iff (hm : m.size < Memory.addressLimit) (hpos : 0 < len.toNat) :
    (∃ m', writeAll (copyWrite dest src)
        (if src < dest then (counters 0 len.toNat).reverse else counters 0 len.toNat) m = .error m') ↔
      m.copy? dest.toNat src.toNat len.toNat = none := by
  rw [(copyWrite_failsAt dest src m.size).writeAll_eq_error_iff rfl, copy?_eq_none_iff,
    ← exists_outside_iff dest hpos hm, ← exists_outside_iff src hpos hm]
  simp only [mem_order]
  constructor
  · rintro ⟨i, hi, hout | hout⟩
    · exact .inl ⟨i, hi, hout⟩
    · exact .inr ⟨i, hi, hout⟩
  · rintro (⟨i, hi, hout⟩ | ⟨i, hi, hout⟩)
    · exact ⟨i, hi, .inl hout⟩
    · exact ⟨i, hi, .inr hout⟩

theorem writeAll_fill_eq_error_iff (hm : m.size < Memory.addressLimit) (hpos : 0 < len.toNat) :
    (∃ m', writeAll (fillWrite dest val) (counters 0 len.toNat) m = .error m') ↔
      m.fill? dest.toNat (val.setWidth 8) len.toNat = none := by
  rw [(fillWrite_failsAt dest val m.size).writeAll_eq_error_iff rfl, fill?_eq_none_iff,
    exists_outside_iff dest hpos hm]

/-- Both routines are over within as many completed rounds as there are bytes, and without a byte
they store nothing. With one, and in a memory that does not have all addresses, they trap if and
only if a range leaves the memory, which is when the native instructions trap. -/
theorem call_traps_iff (name : String) (m : Memory) (dest src val len : Word) :
    ∃ copying filling,
      EndsWithin (copyBytes name) [dest, src, len] m len.toNat copying ∧
      EndsWithin (fillBytes name) [dest, val, len] m len.toNat filling ∧
      (len = 0 → (∃ t, copying = .next t ∧ t.stores = 0 ∧ t.memory = m) ∧
        ∃ t, filling = .next t ∧ t.stores = 0 ∧ t.memory = m) ∧
      (m.size < Memory.addressLimit → 0 < len.toNat →
        ((∃ t, copying = .trap t) ↔
          m.size < dest.toNat + len.toNat ∨ m.size < src.toNat + len.toNat) ∧
        ((∃ t, copying = .trap t) ↔ m.copy? dest.toNat src.toNat len.toNat = none) ∧
        ((∃ t, filling = .trap t) ↔ m.size < dest.toNat + len.toNat) ∧
        ((∃ t, filling = .trap t) ↔ m.fill? dest.toNat (val.setWidth 8) len.toNat = none)) := by
  obtain ⟨copying, hcopy, hcopied⟩ := copyBytes_endsWithin name dest src len m
  obtain ⟨filling, hfill, hfilled⟩ := fillBytes_endsWithin name dest val len m
  refine ⟨copying, filling, hcopy, hfill, ?_, fun hm hpos => ?_⟩
  · rintro rfl
    rw [writeAll_copy_zero] at hcopied
    exact ⟨⟨_, hcopied, rfl, rfl⟩, ⟨_, hfilled, rfl, rfl⟩⟩
  · have hcopying := hcopied.traps_iff.trans (writeAll_copy_eq_error_iff hm hpos)
    have hfilling := hfilled.traps_iff.trans (writeAll_fill_eq_error_iff hm hpos)
    exact ⟨hcopying.trans copy?_eq_none_iff, hcopying, hfilling.trans fill?_eq_none_iff, hfilling⟩

/-- A copy downwards whose first addresses wrap around to the beginning of the memory, and a fill over
its end. -/
theorem call_traps_wrapping :
    (⟨[1, 2, 3, 4]⟩ : Memory).size < Memory.addressLimit ∧ 0 < (3 : Word).toNat ∧
      (∃ t, (copyBytes "memcpy").call 4 [0xFFFFFFFF, 1, 3] ⟨[1, 2, 3, 4]⟩ = .trap t) ∧
      ∃ t, (fillBytes "memset").call 4 [2, 7, 3] ⟨[1, 2, 3, 4]⟩ = .trap t := by
  have hsize : (⟨[1, 2, 3, 4]⟩ : Memory).size < Memory.addressLimit := by decide
  obtain ⟨copying, _, hcopy, -, -, hcopied⟩ :=
    call_traps_iff "memcpy" ⟨[1, 2, 3, 4]⟩ 0xFFFFFFFF 1 7 3
  obtain ⟨_, filling, -, hfill, -, hfilled⟩ := call_traps_iff "memset" ⟨[1, 2, 3, 4]⟩ 2 1 7 3
  obtain ⟨t, ht⟩ := (hcopied hsize (by decide)).1.2 (by decide)
  obtain ⟨s, hs⟩ := (hfilled hsize (by decide)).2.2.1.2 (by decide)
  refine ⟨hsize, by decide, ⟨t, ?_⟩, s, ?_⟩
  · rw [hcopy.settled 4 (by decide), ht]
  · rw [hfill.settled 4 (by decide), hs]

end BulkMemory.Machine
