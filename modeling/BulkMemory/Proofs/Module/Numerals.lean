import BulkMemory.Module.Literal

/-!
# Numbers without a sign

A number without a sign is written with decimal digits, or with hexadecimal ones behind `0x`, and a
single underscore may stand between two digits. `Radix.Numeral` gives such a row its value, one digit
after the other, and `IsNatural` is the number with its mark. `natural?_eq_some_iff` says that these are
the texts that a module's reader takes for numbers, and that it reads their values.
-/

namespace BulkMemory.Module
set_option autoImplicit false

/-- The two ways to write a number. -/
inductive Radix where
  | decimal
  | hexadecimal
deriving DecidableEq, Repr

namespace Radix

def base : Radix → Nat
  | decimal => 10
  | hexadecimal => 16

/-- What stands in front of the digits. -/
def mark : Radix → List Char
  | decimal => []
  | hexadecimal => ['0', 'x']

def isDigit : Radix → Char → Bool
  | decimal => Char.isDigit
  | hexadecimal => isHexDigit

variable {r : Radix} {d : Char} {cs ds : List Char} {n : Nat}

theorem base_pos (r : Radix) : 0 < r.base := by cases r <;> decide

theorem isHexDigit_of_isDigit (h : r.isDigit d = true) : isHexDigit d = true := by
  cases r with
  | decimal =>
    have hdigit : d.isDigit = true := h
    simp [isHexDigit, hdigit]
  | hexadecimal => exact h

theorem isDigit_underscore (r : Radix) : r.isDigit '_' = false := by cases r <;> decide

/-- A row of digits with single underscores between them, and the number that it stands for. -/
inductive Numeral (r : Radix) : List Char → Nat → Prop where
  | digit {d : Char} : r.isDigit d = true → Numeral r [d] (digitValue d)
  | next {cs : List Char} {n : Nat} {d : Char} :
      Numeral r cs n → r.isDigit d = true → Numeral r (cs ++ [d]) (n * r.base + digitValue d)
  | spaced {cs : List Char} {n : Nat} {d : Char} :
      Numeral r cs n → r.isDigit d = true →
      Numeral r (cs ++ ['_', d]) (n * r.base + digitValue d)

namespace Numeral

/-- A numeral begins with a digit. -/
theorem exists_cons (h : r.Numeral cs n) : ∃ d ds, cs = d :: ds ∧ r.isDigit d = true := by
  induction h with
  | @digit d hd => exact ⟨d, [], rfl, hd⟩
  | next _ _ ih | spaced _ _ ih =>
    obtain ⟨d, ds, rfl, hd⟩ := ih
    exact ⟨d, _, List.cons_append, hd⟩

theorem isDigit_or_underscore (h : r.Numeral cs n) : ∀ c ∈ cs, r.isDigit c = true ∨ c = '_' := by
  induction h with
  | digit hd =>
    intro c hc
    rw [List.mem_singleton.1 hc]
    exact .inl hd
  | next _ hd ih =>
    intro c hc
    rcases List.mem_append.1 hc with hc | hc
    · exact ih c hc
    · rw [List.mem_singleton.1 hc]
      exact .inl hd
  | spaced _ hd ih =>
    intro c hc
    rcases List.mem_append.1 hc with hc | hc
    · exact ih c hc
    · rcases List.mem_cons.1 hc with rfl | hc
      · exact .inr rfl
      · rw [List.mem_singleton.1 hc]
        exact .inl hd

end Numeral

/-! ### Reading digits -/

theorem numeralValue_concat (base : Nat) (ds : List Char) (d : Char) :
    numeralValue base (ds ++ [d]) = numeralValue base ds * base + digitValue d := by
  simp [numeralValue]

section Digits

variable {test : Char → Bool}

/-- Digits without an underscore behind the first one. -/
theorem separatedDigits?_cons_cons {c e : Char} (he : e ≠ '_') (cs : List Char) :
    separatedDigits? test (c :: e :: cs) =
      if test c then (separatedDigits? test (e :: cs)).map (c :: ·) else none := by
  rw [separatedDigits?]
  · intro h
    cases h
  · intro cs' h
    exact he (List.cons.inj h).1

/-- One more digit may follow at once, or behind an underscore. -/
theorem separatedDigits?_concat (hmark : test '_' = false) (hd : test d = true)
    (h : separatedDigits? test cs = some ds) :
    separatedDigits? test (cs ++ [d]) = some (ds ++ [d]) ∧
      separatedDigits? test (cs ++ ['_', d]) = some (ds ++ [d]) := by
  have hne : d ≠ '_' := by
    rintro rfl
    rw [hmark] at hd
    cases hd
  fun_induction separatedDigits? test cs generalizing ds with
  | case1 | case3 | case5 | case7 => cases h
  | case2 c hc =>
    cases h
    constructor
    · simp [separatedDigits?_cons_cons hne, separatedDigits?, hc, hd]
    · simp [separatedDigits?, hc, hd]
  | case4 c cs hc ih =>
    obtain ⟨es, hes, rfl⟩ := Option.map_eq_some_iff.1 h
    obtain ⟨hnext, hspaced⟩ := ih hes
    constructor
    · simp [separatedDigits?, hc, hnext]
    · simp [separatedDigits?, hc, hspaced]
  | case6 c cs hnil hcons hc ih =>
    obtain ⟨es, hes, rfl⟩ := Option.map_eq_some_iff.1 h
    obtain ⟨hnext, hspaced⟩ := ih hes
    obtain ⟨e, cs, rfl⟩ := List.exists_cons_of_ne_nil hnil
    have he : e ≠ '_' := fun heq => hcons cs (by rw [heq])
    constructor
    · simpa [separatedDigits?_cons_cons he, hc] using hnext
    · simpa [separatedDigits?_cons_cons he, hc] using hspaced

end Digits

/-- Digits are read as a numeral behind any text that a digit may follow. -/
theorem numeral_append {more : List Char} (front : List Char)
    (hfront : ∀ d, r.isDigit d = true → r.Numeral (front ++ [d]) (n * r.base + digitValue d))
    (h : separatedDigits? r.isDigit more = some ds) :
    r.Numeral (front ++ more) (ds.foldl (fun m d => m * r.base + digitValue d) n) := by
  fun_induction separatedDigits? r.isDigit more generalizing front n ds with
  | case1 | case3 | case5 | case7 => cases h
  | case2 c hc =>
    cases h
    exact hfront c hc
  | case4 c more hc ih =>
    obtain ⟨es, hes, rfl⟩ := Option.map_eq_some_iff.1 h
    have hspaced : ∀ d, r.isDigit d = true → r.Numeral ((front ++ [c, '_']) ++ [d])
        ((n * r.base + digitValue c) * r.base + digitValue d) := by
      intro d hd
      simpa using (hfront c hc).spaced hd
    simpa using ih _ hspaced hes
  | case6 c more _ _ hc ih =>
    obtain ⟨es, hes, rfl⟩ := Option.map_eq_some_iff.1 h
    simpa using ih _ (fun d hd => (hfront c hc).next hd) hes

/-- The digits of a numeral are read, and with its value. -/
theorem numeral_iff :
    r.Numeral cs n ↔ (separatedDigits? r.isDigit cs).map (numeralValue r.base) = some n := by
  constructor
  · intro h
    rw [Option.map_eq_some_iff]
    induction h with
    | @digit d hd => exact ⟨[d], by simp [separatedDigits?, hd], by simp [numeralValue]⟩
    | next _ hd ih =>
      obtain ⟨ds, hds, rfl⟩ := ih
      exact ⟨_, (separatedDigits?_concat r.isDigit_underscore hd hds).1, numeralValue_concat ..⟩
    | spaced _ hd ih =>
      obtain ⟨ds, hds, rfl⟩ := ih
      exact ⟨_, (separatedDigits?_concat r.isDigit_underscore hd hds).2, numeralValue_concat ..⟩
  · intro h
    obtain ⟨ds, hds, rfl⟩ := Option.map_eq_some_iff.1 h
    refine numeral_append [] (fun d hd => ?_) hds
    rw [Nat.zero_mul, Nat.zero_add]
    exact .digit hd

end Radix

/-- A number without a sign: the mark of its radix, and a numeral. -/
def IsNatural (cs : List Char) (n : Nat) : Prop :=
  ∃ r ds, cs = Radix.mark r ++ ds ∧ r.Numeral ds n

/-- A decimal numeral does not begin with the mark of a hexadecimal number. -/
theorem Radix.Numeral.not_marked {ds : List Char} {n : Nat} (h : Radix.decimal.Numeral ds n)
    (c : Char) (hc : isHexDigit c = false) (hne : c ≠ '_') (cs : List Char) : ds ≠ '0' :: c :: cs := by
  rintro rfl
  rcases h.isDigit_or_underscore c (by simp) with hdigit | heq
  · rw [isHexDigit_of_isDigit hdigit] at hc
    cases hc
  · exact hne heq

/-- The reader takes numbers without a sign for such, and finds their values. -/
theorem natural?_eq_some_iff {cs : List Char} {n : Nat} : natural? cs = some n ↔ IsNatural cs n := by
  constructor
  · intro h
    rw [natural?.eq_def] at h
    split at h
    · exact ⟨.hexadecimal, _, rfl, Radix.numeral_iff.2 h⟩
    · exact ⟨.decimal, _, rfl, Radix.numeral_iff.2 h⟩
  · rintro ⟨r, ds, rfl, h⟩
    cases r with
    | decimal =>
      rw [Radix.mark, List.nil_append, natural?]
      · exact Radix.numeral_iff.1 h
      · exact fun cs heq => h.not_marked 'x' (by decide) (by decide) cs heq
    | hexadecimal => exact Radix.numeral_iff.1 h

end BulkMemory.Module
