import BulkMemory.Machine

/-!
# Counting loops

The replacement routines are loops over a counter `i` that write one byte in each round. `Writes`
says what a single round writes, as a function on memories, and `writeAll` makes the writes of a
whole loop. `countUp_ends` and `countDown_ends` reduce a run of a loop to `writeAll` over the values
of the counter, upwards or downwards; a run that fails stops in the memory of its first bad write.
-/

namespace BulkMemory.Machine
set_option autoImplicit false

open BulkMemory.Function Instr

@[simp] theorem State.pop_push (s : State) (w : Word) (f : Word → State → Ending) :
    (s.push w).pop f = f w s := rfl

@[simp] theorem State.popTwo_push_push (s : State) (a b : Word)
    (f : Word → Word → State → Ending) : ((s.push a).push b).popTwo f = f a b s := rfl

@[simp] theorem Ending.next_andThen (s : State) (f : State → Ending) :
    (Ending.next s).andThen f = f s := rfl

/-! ### Expressions -/

/-- An instruction that only puts a word on the stack, whenever the locals are the given ones. -/
def Computes (locals : List (String × Word)) (i : Instr) (w : Word) : Prop :=
  ∀ rounds s, s.locals = locals → i.exec rounds s = .next (s.push w)

variable {locals params : List (String × Word)} {write : Word → Memory → Option Memory}
  {step : Instr} {len : Word}

theorem computes_localGet {name : String} {w : Word} (h : locals.lookup name = some w) :
    Computes locals (localGet name) w := by
  intro rounds s hs
  simp only [exec, State.getLocal, hs, h]

theorem computes_const (w : Word) : Computes locals (const w) w := fun _ _ _ => by rw [exec]

theorem Computes.binary {lhs rhs : Instr} {a b : Word} (op : BinaryOp) (hl : Computes locals lhs a)
    (hr : Computes locals rhs b) : Computes locals (binary op lhs rhs) (op.apply a b) := by
  intro rounds s hs
  rw [exec, hl rounds s hs, Ending.next_andThen, hr rounds (s.push a) hs]
  rfl

theorem Computes.eqz {i : Instr} {w : Word} (h : Computes locals i w) :
    Computes locals (eqz i) (if w = 0 then 1 else 0) := by
  intro rounds s hs
  rw [exec, h rounds s hs]
  rfl

theorem Computes.exec_brIf {cond : Instr} {w : Word} (h : Computes locals cond w) (label : String)
    (rounds : Nat) (s : State) (hs : s.locals = locals) :
    (brIf label cond).exec rounds s = if w = 0 then .next s else .branch label s := by
  rw [exec, h rounds s hs]
  rfl

/-! ### One round -/

/-- The state in the rounds of a loop over `i`: the parameters stay as they are. -/
def counting (params : List (String × Word)) (i : Word) (m : Memory) (stores : Nat) : State where
  memory := m
  locals := params ++ [("i", i)]
  stores

theorem counting_store (params : List (String × Word)) (i : Word) (m : Memory) (stores : Nat)
    (address w : Word) :
    (counting params i m stores).store address w =
      match m.store? address.toNat (w.setWidth 8) with
      | some m' => .next (counting params i m' (stores + 1))
      | none => .trap (counting params i m stores) := rfl

/-- The parameters of a routine, among them the number of rounds, but not the counter. -/
structure HasLength (params : List (String × Word)) (len : Word) : Prop where
  lookup : params.lookup "len" = some len
  fresh : ∀ p ∈ params, p.1 ≠ "i"

theorem lookup_append_of_some {name : String} {w : Word} (h : params.lookup name = some w)
    (rest : List (String × Word)) : (params ++ rest).lookup name = some w := by
  rw [List.lookup_append, h, Option.some_or]

theorem HasLength.lookup_counter (h : HasLength params len) (i : Word) :
    (params ++ [("i", i)]).lookup "i" = some i := by
  have hnone : params.lookup "i" = none := by
    rw [List.lookup_eq_none_iff]
    intro p hp
    simpa using (h.fresh p hp).symm
  rw [List.lookup_append, hnone]
  rfl

theorem HasLength.computes_counter (h : HasLength params len) (i : Word) :
    Computes (params ++ [("i", i)]) (localGet "i") i :=
  computes_localGet (h.lookup_counter i)

theorem HasLength.computes_length (h : HasLength params len) (i : Word) :
    Computes (params ++ [("i", i)]) (localGet "len") len :=
  computes_localGet (lookup_append_of_some h.lookup _)

theorem computes_sum {params : List (String × Word)} (h : HasLength params len) (name : String)
    {base : Word} (hname : params.lookup name = some base) (i : Word) :
    Computes (params ++ [("i", i)]) (binary .add (localGet name) (localGet "i")) (base + i) :=
  (computes_localGet (lookup_append_of_some hname _)).binary .add (h.computes_counter i)

/-- Setting the counter changes nothing else. -/
theorem HasLength.exec_setCounter (h : HasLength params len) {value : Instr} {i j : Word}
    (hv : Computes (params ++ [("i", i)]) value j) (rounds : Nat) (m : Memory) (stores : Nat) :
    (localSet "i" value).exec rounds (counting params i m stores) =
      .next (counting params j m stores) := by
  have hset : (params ++ [("i", i)]).map (fun l => if l.1 = "i" then ("i", j) else l) =
      params ++ [("i", j)] := by
    rw [List.map_append, List.map_congr_left fun p hp => if_neg (h.fresh p hp), List.map_id']
    rfl
  rw [exec, hv rounds _ rfl, Ending.next_andThen, State.pop_push, State.setLocal]
  simp only [counting, h.lookup_counter, hset]
  rfl

/-- What a step of a routine does to the memory, given the counter. A step that fails has changed
nothing. -/
structure Writes (params : List (String × Word)) (step : Instr)
    (write : Word → Memory → Option Memory) : Prop where
  done : ∀ rounds i m m' stores, write i m = some m' →
    step.exec rounds (counting params i m stores) = .next (counting params i m' (stores + 1))
  fault : ∀ rounds i m stores, write i m = none →
    ∃ t, step.exec rounds (counting params i m stores) = .trap t ∧ t.memory = m

/-- Make the writes for some values of the counter, one after the other. The error is the memory at
the first write that fails. -/
def writeAll (write : Word → Memory → Option Memory) : List Word → Memory → Except Memory Memory
  | [], m => .ok m
  | i :: is, m =>
    match write i m with
    | some m' => writeAll write is m'
    | none => .error m

/-- A run ends as some writes do: in the ending given for their result, or in a trap. -/
def EndsAs (ending : Ending) (behind : Memory → Ending) : Except Memory Memory → Prop
  | .ok m => ending = behind m
  | .error m => ∃ t, ending = .trap t ∧ t.memory = m

/-- The body of the loop of `countUp`. -/
def roundUp (done again : String) (step : Instr) : List Instr :=
  [brIf done (binary .geU (localGet "i") (localGet "len")), step,
   localSet "i" (binary .add (localGet "i") (const 1)), br again]

/-- The body of the loop of `countDown`. -/
def roundDown (done again : String) (step : Instr) : List Instr :=
  [brIf done (eqz (localGet "i")), localSet "i" (binary .sub (localGet "i") (const 1)), step,
   br again]

theorem countUp_eq (done again : String) (step : Instr) :
    countUp done again step =
      [localSet "i" (const 0), block done [loop again (roundUp done again step)]] := rfl

theorem countDown_eq (done again : String) (step : Instr) :
    countDown done again step =
      [localSet "i" (localGet "len"), block done [loop again (roundDown done again step)]] := rfl

variable {done again : String} {i : Word} {m m' : Memory}

theorem HasLength.roundUp_exit (h : HasLength params len) (hi : len ≤ i) (rounds stores : Nat) :
    execAll rounds (roundUp done again step) (counting params i m stores) =
      .branch done (counting params i m stores) := by
  have hcond := (h.computes_counter i).binary .geU (h.computes_length i)
  rw [roundUp, execAll, hcond.exec_brIf done rounds _ rfl, BinaryOp.apply, if_pos hi, if_neg (by decide)]
  rfl

theorem HasLength.roundUp_stay (h : HasLength params len) (hi : i < len) (rounds stores : Nat) :
    execAll rounds (roundUp done again step) (counting params i m stores) =
      (step.exec rounds (counting params i m stores)).andThen fun s =>
        execAll rounds [localSet "i" (binary .add (localGet "i") (const 1)), br again] s := by
  have hcond := (h.computes_counter i).binary .geU (h.computes_length i)
  rw [roundUp, execAll, hcond.exec_brIf done rounds _ rfl, BinaryOp.apply,
    if_neg (BitVec.not_le.2 hi), if_pos rfl, Ending.next_andThen, execAll]

theorem HasLength.roundUp_next (h : HasLength params len) (hw : Writes params step write)
    (hi : i < len) (hm : write i m = some m') (rounds stores : Nat) :
    execAll rounds (roundUp done again step) (counting params i m stores) =
      .branch again (counting params (i + 1) m' (stores + 1)) := by
  have hnext := (h.computes_counter i).binary .add (computes_const 1)
  rw [h.roundUp_stay hi, hw.done rounds i m m' stores hm, Ending.next_andThen, execAll,
    h.exec_setCounter hnext]
  rfl

theorem HasLength.roundDown_exit (h : HasLength params len) (rounds stores : Nat) :
    execAll rounds (roundDown done again step) (counting params 0 m stores) =
      .branch done (counting params 0 m stores) := by
  rw [roundDown, execAll, (h.computes_counter 0).eqz.exec_brIf done rounds _ rfl, if_pos rfl,
    if_neg (by decide)]
  rfl

theorem HasLength.roundDown_stay (h : HasLength params len) (hi : i ≠ 0) (rounds stores : Nat) :
    execAll rounds (roundDown done again step) (counting params i m stores) =
      (step.exec rounds (counting params (i - 1) m stores)).andThen fun s =>
        execAll rounds [br again] s := by
  have hnext := (h.computes_counter i).binary .sub (computes_const 1)
  rw [roundDown, execAll, (h.computes_counter i).eqz.exec_brIf done rounds _ rfl, if_neg hi,
    if_pos rfl, Ending.next_andThen, execAll, h.exec_setCounter hnext, Ending.next_andThen, execAll]
  rfl

/-! ### Whole loops -/

/-- The values of the counter below a bound, upwards. -/
def counters (start count : Nat) : List Word := (List.range' start count).map (BitVec.ofNat 32)

theorem toNat_add_ofNat {w : Word} {k limit : Nat} (hk : w.toNat + k < limit)
    (hlimit : limit ≤ Memory.addressLimit) : (w + BitVec.ofNat 32 k).toNat = w.toNat + k := by
  rw [Memory.addressLimit] at hlimit
  rw [BitVec.toNat_add, BitVec.toNat_ofNat]
  omega

theorem counters_succ (start count : Nat) :
    counters start (count + 1) = BitVec.ofNat 32 start :: counters (start + 1) count := by
  simp [counters, List.range'_succ]

theorem reverse_counters_succ (count : Nat) :
    (counters 0 (count + 1)).reverse = BitVec.ofNat 32 count :: (counters 0 count).reverse := by
  simp [counters, List.range'_concat]

/-- Upward writes that lead from each stage to the next one lead to the last stage. -/
theorem writeAll_up (stage : Nat → Memory) {n : Nat}
    (h : ∀ k < n, write (BitVec.ofNat 32 k) (stage k) = some (stage (k + 1))) :
    writeAll write (counters 0 n) (stage 0) = .ok (stage n) := by
  have hfrom : ∀ left start, start + left = n →
      writeAll write (counters start left) (stage start) = .ok (stage n) := by
    intro left
    induction left with
    | zero => rintro start rfl; rfl
    | succ left ih =>
      intro start hstart
      rw [counters_succ, writeAll, h start (by omega)]
      exact ih (start + 1) (by omega)
  exact hfrom n 0 (by omega)

/-- Downward writes that lead from each stage to the one before lead to the first stage. -/
theorem writeAll_down (stage : Nat → Memory) {n : Nat}
    (h : ∀ k < n, write (BitVec.ofNat 32 k) (stage (k + 1)) = some (stage k)) :
    writeAll write (counters 0 n).reverse (stage n) = .ok (stage 0) := by
  induction n with
  | zero => rfl
  | succ n ih =>
    rw [reverse_counters_succ, writeAll, h n (by omega)]
    exact ih fun k hk => h k (by omega)

theorem repeatLoop_again {body : State → Ending} {s t : State} {label : String} (n : Nat)
    (h : body { s with operands := [] } = .branch label t) :
    State.repeatLoop label body (n + 1) s =
      State.repeatLoop label body n { t with operands := s.operands } := by
  rw [State.repeatLoop, State.inBlock, h]
  exact if_pos rfl

theorem repeatLoop_leave {body : State → Ending} {s t : State} {label outer : String} (n : Nat)
    (h : body { s with operands := [] } = .branch outer t) (hne : outer ≠ label) :
    State.repeatLoop label body (n + 1) s = .branch outer t := by
  rw [State.repeatLoop, State.inBlock, h]
  exact if_neg hne

theorem repeatLoop_trap {body : State → Ending} {s t : State} {label : String} (n : Nat)
    (h : body { s with operands := [] } = .trap t) : State.repeatLoop label body (n + 1) s = .trap t := by
  rw [State.repeatLoop, State.inBlock, h]

/-- The rounds that are left of an upward loop make the writes that are left. -/
theorem HasLength.loopUp (h : HasLength params len) (hw : Writes params step write)
    (hne : done ≠ again) (rounds left : Nat) :
    ∀ limit i m stores, i.toNat + left = len.toNat → left < limit →
      EndsAs (State.repeatLoop again (fun s => execAll rounds (roundUp done again step) s) limit
          (counting params i m stores))
        (fun m' => .branch done (counting params len m' (stores + left)))
        (writeAll write (counters i.toNat left) m) := by
  induction left with
  | zero =>
    intro limit i m stores hi hlimit
    obtain ⟨n, rfl⟩ : ∃ n, limit = n + 1 := ⟨limit - 1, by omega⟩
    obtain rfl : i = len := BitVec.eq_of_toNat_eq hi
    exact repeatLoop_leave n (h.roundUp_exit (BitVec.le_refl i) rounds stores) hne
  | succ left ih =>
    intro limit i m stores hi hlimit
    obtain ⟨n, rfl⟩ : ∃ n, limit = n + 1 := ⟨limit - 1, by omega⟩
    have hlt : i < len := by rw [BitVec.lt_def]; omega
    have hnext : (i + 1).toNat = i.toNat + 1 := by bv_omega
    have hcounters : counters i.toNat (left + 1) = i :: counters (i + 1).toNat left := by
      rw [hnext, counters_succ, BitVec.ofNat_toNat, BitVec.setWidth_eq]
    rw [hcounters, writeAll]
    cases hm : write i m with
    | some m' =>
      rw [repeatLoop_again n (h.roundUp_next hw hlt hm rounds stores)]
      have hrest := ih n (i + 1) m' (stores + 1) (by omega) (by omega)
      rwa [show stores + 1 + left = stores + (left + 1) by omega] at hrest
    | none =>
      obtain ⟨t, ht, hmem⟩ := hw.fault rounds i m stores hm
      have hround : execAll rounds (roundUp done again step) (counting params i m stores) = .trap t := by
        rw [h.roundUp_stay hlt, ht]
        rfl
      exact ⟨t, repeatLoop_trap n hround, hmem⟩

/-- The rounds that are left of a downward loop make the writes that are left. -/
theorem HasLength.loopDown (h : HasLength params len) (hw : Writes params step write)
    (hne : done ≠ again) (rounds left : Nat) :
    ∀ limit i m stores, i.toNat = left → left < limit →
      EndsAs (State.repeatLoop again (fun s => execAll rounds (roundDown done again step) s) limit
          (counting params i m stores))
        (fun m' => .branch done (counting params 0 m' (stores + left)))
        (writeAll write (counters 0 left).reverse m) := by
  induction left with
  | zero =>
    intro limit i m stores hi hlimit
    obtain ⟨n, rfl⟩ : ∃ n, limit = n + 1 := ⟨limit - 1, by omega⟩
    obtain rfl : i = 0 := BitVec.eq_of_toNat_eq hi
    exact repeatLoop_leave n (h.roundDown_exit rounds stores) hne
  | succ left ih =>
    intro limit i m stores hi hlimit
    obtain ⟨n, rfl⟩ : ∃ n, limit = n + 1 := ⟨limit - 1, by omega⟩
    have hpos : i ≠ 0 := by rintro rfl; simp at hi
    have hnext : (i - 1).toNat = left := by bv_omega
    have hcounters : (counters 0 (left + 1)).reverse = (i - 1) :: (counters 0 left).reverse := by
      rw [reverse_counters_succ, ← hnext, BitVec.ofNat_toNat, BitVec.setWidth_eq]
    rw [hcounters, writeAll]
    cases hm : write (i - 1) m with
    | some m' =>
      have hround : execAll rounds (roundDown done again step) (counting params i m stores) =
          .branch again (counting params (i - 1) m' (stores + 1)) := by
        rw [h.roundDown_stay hpos, hw.done rounds (i - 1) m m' stores hm]
        rfl
      rw [repeatLoop_again n hround]
      have hrest := ih n (i - 1) m' (stores + 1) hnext (by omega)
      rwa [show stores + 1 + left = stores + (left + 1) by omega] at hrest
    | none =>
      obtain ⟨t, ht, hmem⟩ := hw.fault rounds (i - 1) m stores hm
      have hround : execAll rounds (roundDown done again step) (counting params i m stores) = .trap t := by
        rw [h.roundDown_stay hpos, ht]
        rfl
      exact ⟨t, repeatLoop_trap n hround, hmem⟩

/-- A block whose loop is left by the label of the block goes on behind it. -/
theorem EndsAs.exec_block {body : List Instr} {rounds : Nat} {s : State} {behind : Memory → State}
    {result : Except Memory Memory}
    (h : EndsAs (State.repeatLoop again (fun s => execAll rounds body s) rounds
      { s with operands := [] }) (fun m' => .branch done (behind m')) result) :
    EndsAs (execAll rounds [block done [loop again body]] s)
      (fun m' => .next { behind m' with operands := s.operands }) result := by
  cases result with
  | ok m' =>
    have hloop : State.repeatLoop again _ rounds _ = .branch done (behind m') := h
    show execAll rounds _ s = _
    simp only [execAll, exec, State.inBlock, hloop, Ending.andThen, State.catchBranch, if_pos]
  | error m' =>
    obtain ⟨t, hloop, hmem⟩ := h
    refine ⟨t, ?_, hmem⟩
    simp only [execAll, exec, State.inBlock, hloop, Ending.andThen, State.catchBranch]

/-- A choice between bodies ends as the chosen body does. -/
theorem EndsAs.exec_ifElse {cond : Instr} {w : Word} {thenBody elseBody : List Instr} {rounds : Nat}
    {s : State} {behind : Memory → State} {result : Except Memory Memory}
    (hcond : Computes s.locals cond w) (hs : s.operands = [])
    (hbehind : ∀ m', (behind m').operands = [])
    (h : EndsAs (if w = 0 then execAll rounds elseBody s else execAll rounds thenBody s)
      (fun m' => .next (behind m')) result) :
    EndsAs (execAll rounds [ifElse cond thenBody elseBody] s) (fun m' => .next (behind m')) result := by
  have hself : { s with operands := [] } = s := by rw [← hs]
  rw [execAll, exec, hcond rounds s rfl, Ending.next_andThen, State.pop_push, State.inBlock, hself]
  cases result with
  | ok m' =>
    have hself' : { behind m' with operands := s.operands } = behind m' := by
      rw [hs, ← hbehind m']
    have hbody : ite (w = 0) _ _ = Ending.next (behind m') := h
    rw [hbody]
    simp only [hbehind, List.isEmpty_nil, if_true, hself', Ending.next_andThen, execAll]
    rfl
  | error m' =>
    obtain ⟨t, hbody, hmem⟩ := h
    rw [hbody]
    exact ⟨t, rfl, hmem⟩

/-- A call ends as the body of the function does. -/
theorem EndsAs.call {f : Function} {rounds : Nat} {arguments : List Word} {behind : Memory → State}
    {result : Except Memory Memory} (hargs : arguments.length = f.params.length)
    (h : EndsAs (execAll rounds f.body (f.entry arguments m)) (fun m' => .next (behind m')) result) :
    EndsAs (f.call rounds arguments m) (fun m' => .next (behind m')) result := by
  rw [Function.call, if_pos hargs]
  cases result with
  | ok m' =>
    have hbody : execAll rounds _ _ = .next (behind m') := h
    rw [hbody]
    rfl
  | error m' =>
    obtain ⟨t, hbody, hmem⟩ := h
    rw [hbody]
    exact ⟨t, rfl, hmem⟩

/-- An upward loop writes for each value of the counter below the length. -/
theorem countUp_ends (done again : String) (h : HasLength params len) (hw : Writes params step write)
    (hne : done ≠ again) {rounds : Nat} (hrounds : len.toNat < rounds) (i : Word) (m : Memory)
    (stores : Nat) :
    EndsAs (execAll rounds (countUp done again step) (counting params i m stores))
      (fun m' => .next (counting params len m' (stores + len.toNat)))
      (writeAll write (counters 0 len.toNat) m) := by
  rw [countUp_eq, execAll, h.exec_setCounter (computes_const 0), Ending.next_andThen]
  have hloop := h.loopUp hw hne rounds len.toNat rounds 0 m stores (by simp) hrounds
  exact EndsAs.exec_block (s := counting params 0 m stores) hloop

/-- A downward loop makes the same writes, the last one first. -/
theorem countDown_ends (done again : String) (h : HasLength params len) (hw : Writes params step write)
    (hne : done ≠ again) {rounds : Nat} (hrounds : len.toNat < rounds) (i : Word) (m : Memory)
    (stores : Nat) :
    EndsAs (execAll rounds (countDown done again step) (counting params i m stores))
      (fun m' => .next (counting params 0 m' (stores + len.toNat)))
      (writeAll write (counters 0 len.toNat).reverse m) := by
  rw [countDown_eq, execAll, h.exec_setCounter (h.computes_length i), Ending.next_andThen]
  have hloop := h.loopDown hw hne rounds len.toNat rounds len m stores rfl hrounds
  exact EndsAs.exec_block (s := counting params len m stores) hloop

end BulkMemory.Machine
