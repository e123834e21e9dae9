import BulkMemory.Proofs.Form.Reading
import BulkMemory.Proofs.Occurrence.Relex

/-!
# Calls in a forest

`Form.callsAll` puts calls in place of the instructions of a forest, group by group. No index is taken
across a parenthesis, so this agrees with `Lexeme.calls` on the lexemes (`Form.lexemesAll_callsAll`),
and what was a group is one afterwards.
-/

namespace BulkMemory
set_option autoImplicit false

variable {rs : List Replacement}

/-! ### Exchanging lexemes in parts -/

/-- What does not begin with a zero lends no index to what stands in front of it. -/
theorem takenIndices_append_of_head {α : Type} {view : α → Lexeme} {ys : List α}
    (h : ∀ y ∈ ys.head?, (view y).isZero = false) (count : Nat) (xs : List α) :
    takenIndices view count (xs ++ ys) = takenIndices view count xs := by
  have hys : ys.takeWhile (fun y => (view y).isZero) = [] := by
    cases ys with
    | nil => rfl
    | cons y ys => simp [h y rfl]
  have hzeros : (xs ++ ys).takeWhile (fun x => (view x).isZero) =
      xs.takeWhile fun x => (view x).isZero := by
    rw [List.takeWhile_append, hys, List.append_nil]
    split
    · next hall => exact ((List.takeWhile_prefix _).eq_of_length hall).symm
    · rfl
  rw [takenIndices, hzeros, takenIndices]

theorem length_takenIndices_le {α : Type} (view : α → Lexeme) (count : Nat) (xs : List α) :
    (takenIndices view count xs).length ≤ (xs.takeWhile fun x => (view x).isZero).length := by
  rw [takenIndices]
  split
  · exact (List.take_sublist _ _).length_le
  · exact Nat.zero_le _

namespace Lexeme

theorem calls_append {ms : List Lexeme} (h : ∀ m ∈ ms.head?, m.isZero = false)
    (ls : List Lexeme) : calls rs (ls ++ ms) = calls rs ls ++ calls rs ms := by
  fun_induction calls rs ls with
  | case1 => rfl
  | case2 l ls hnone ih => rw [List.cons_append, calls_cons_of_none hnone, ih, List.cons_append]
  | case3 l ls r hsome ih =>
    have hle := Nat.le_trans (length_takenIndices_le id r.op.indexCount ls)
      (List.takeWhile_sublist _).length_le
    have htaken : takenIndices id r.op.indexCount (ls ++ ms) = takenIndices id r.op.indexCount ls :=
      takenIndices_append_of_head h _ ls
    rw [List.cons_append, calls_cons_of_some hsome, htaken, List.drop_append_of_le_length hle, ih]
    rfl

/-- A parenthesis stands between what is exchanged in front of it and behind it. -/
theorem calls_append_paren {l : Lexeme} (h : l.isParen = true) (ls ms : List Lexeme) :
    calls rs (ls ++ l :: ms) = calls rs ls ++ l :: calls rs ms := by
  have hkind : l.kind ≠ .keyword ∧ l.kind ≠ .number := by
    constructor <;> intro hkind <;> simp [isParen, hkind] at h
  rw [calls_append (by simp [isZero, hkind.2]), calls_cons_of_none]
  exact replacement?_of_not_keyword hkind.1

end Lexeme

namespace Form

open Lexeme

/-! ### Exchanging forms -/

/-- The lexeme with which a form begins. -/
def first : Form → Lexeme
  | atom l => l
  | group _ => opening

mutual

/-- A form with calls in place of the instructions inside it. -/
def withCalls (rs : List Replacement) : Form → Form
  | atom l => atom l
  | group items => group (callsFrom rs 0 items)

/-- Forms with calls in place of instructions, behind the first `skip`, which are indices that an
instruction in front of them takes. -/
def callsFrom (rs : List Replacement) : (skip : Nat) → List Form → List Form
  | _, [] => []
  | skip + 1, _ :: fs => callsFrom rs skip fs
  | 0, f :: fs =>
    match f.first.replacement? rs with
    | none => f.withCalls rs :: callsFrom rs 0 fs
    | some r =>
      atom ⟨.keyword, "call"⟩ :: atom (named r.name) ::
        callsFrom rs (takenIndices first r.op.indexCount fs).length fs

end

/-- A forest with calls in place of its instructions. -/
def callsAll (rs : List Replacement) (fs : List Form) : List Form := callsFrom rs 0 fs

theorem withCalls_group (rs : List Replacement) (items : List Form) :
    (group items).withCalls rs = group (callsAll rs items) := rfl

theorem callsFrom_cons_of_none {f : Form} (h : f.first.replacement? rs = none) (fs : List Form) :
    callsFrom rs 0 (f :: fs) = f.withCalls rs :: callsFrom rs 0 fs := by
  rw [callsFrom, h]

theorem callsFrom_cons_of_some {f : Form} {r : Replacement} (h : f.first.replacement? rs = some r)
    (fs : List Form) :
    callsFrom rs 0 (f :: fs) =
      atom ⟨.keyword, "call"⟩ :: atom (named r.name) ::
        callsFrom rs (takenIndices first r.op.indexCount fs).length fs := by
  rw [callsFrom, h]

theorem replacement?_opening : opening.replacement? rs = none :=
  replacement?_of_not_keyword (by decide)

/-- The zeros at the front of a forest. -/
def zeros (fs : List Form) : List Form := fs.takeWhile fun f => f.first.isZero

/-- A form that begins with a zero is that zero. -/
theorem exists_atom_of_isZero {f : Form} (h : f.first.isZero = true) : ∃ l, f = atom l := by
  cases f with
  | atom l => exact ⟨l, rfl⟩
  | group items => exact absurd (show opening.isZero = true from h) (by decide)

theorem takeWhile_lexemesAll (fs : List Form) :
    (lexemesAll fs).takeWhile (fun l => l.isZero) = (zeros fs).map first := by
  induction fs with
  | nil => rfl
  | cons f fs ih =>
    cases hzero : f.first.isZero with
    | true =>
      obtain ⟨l, rfl⟩ := exists_atom_of_isZero hzero
      have hl : l.isZero = true := hzero
      simp [zeros, lexemesAll, lexemes, first, hl, ih]
    | false =>
      obtain ⟨ls, hls⟩ : ∃ ls, f.lexemes = f.first :: ls := by
        cases f with
        | atom l => exact ⟨[], rfl⟩
        | group items => exact ⟨_, lexemes.eq_2 items⟩
      simp [zeros, lexemesAll, hls, hzero]

/-- An instruction takes as many lexemes of a forest as forms. -/
theorem length_takenIndices_lexemesAll (count : Nat) (fs : List Form) :
    (takenIndices id count (lexemesAll fs)).length = (takenIndices first count fs).length := by
  have hzeros : (lexemesAll fs).takeWhile (fun l => (id l).isZero) = (zeros fs).map first :=
    takeWhile_lexemesAll fs
  simp only [takenIndices, hzeros, zeros, List.length_map]
  split
  · rw [List.length_take, List.length_take, List.length_map]
  · rfl

/-- The lexemes of a forest with calls are its lexemes with calls. -/
theorem lexemesAll_callsFrom (rs : List Replacement) : (skip : Nat) → (fs : List Form) →
    skip ≤ (zeros fs).length →
      lexemesAll (callsFrom rs skip fs) = calls rs ((lexemesAll fs).drop skip)
  | skip, [], _ => by simp [callsFrom, calls]
  | skip + 1, f :: fs, h => by
    cases hzero : f.first.isZero with
    | false => simp [zeros, hzero] at h
    | true =>
      obtain ⟨l, rfl⟩ := exists_atom_of_isZero hzero
      have hskip : skip ≤ (zeros fs).length := by simpa [zeros, hzero] using h
      rw [callsFrom, lexemesAll_callsFrom rs skip fs hskip]
      rfl
  | 0, group items :: fs, _ => by
    have hitems := lexemesAll_callsFrom rs 0 items (Nat.zero_le _)
    have hfs := lexemesAll_callsFrom rs 0 fs (Nat.zero_le _)
    rw [List.drop_zero] at hitems hfs
    have hgroup (inner outer : List Lexeme) :
        (opening :: (inner ++ [closing])) ++ outer = opening :: (inner ++ closing :: outer) := by simp
    rw [callsFrom_cons_of_none replacement?_opening, lexemesAll, hfs, withCalls, lexemes, hitems,
      hgroup, List.drop_zero, lexemesAll, lexemes, hgroup, calls_cons_of_none replacement?_opening,
      calls_append_paren (by decide)]
  | 0, atom l :: fs, _ => by
    cases hl : l.replacement? rs with
    | none =>
      have hfs := lexemesAll_callsFrom rs 0 fs (Nat.zero_le _)
      rw [callsFrom_cons_of_none hl, lexemesAll, hfs]
      exact (calls_cons_of_none hl _).symm
    | some r =>
      have hfs := lexemesAll_callsFrom rs (takenIndices first r.op.indexCount fs).length fs
        (length_takenIndices_le ..)
      rw [callsFrom_cons_of_some hl, lexemesAll, lexemesAll, hfs, ← length_takenIndices_lexemesAll]
      exact (calls_cons_of_some hl _).symm

theorem lexemesAll_callsAll (rs : List Replacement) (fs : List Form) :
    lexemesAll (callsAll rs fs) = calls rs (lexemesAll fs) :=
  lexemesAll_callsFrom rs 0 fs (Nat.zero_le _)

theorem areProper_callsFrom (rs : List Replacement) : (skip : Nat) → (fs : List Form) →
    areProper fs = true → areProper (callsFrom rs skip fs) = true
  | skip, [], _ => by simp [callsFrom, areProper]
  | skip + 1, f :: fs, h => by
    rw [areProper, Bool.and_eq_true] at h
    exact areProper_callsFrom rs skip fs h.2
  | 0, group items :: fs, h => by
    rw [areProper, Bool.and_eq_true, isProper] at h
    rw [callsFrom_cons_of_none replacement?_opening, areProper, withCalls, isProper,
      areProper_callsFrom rs 0 items h.1, areProper_callsFrom rs 0 fs h.2]
    rfl
  | 0, atom l :: fs, h => by
    rw [areProper, Bool.and_eq_true] at h
    cases hl : l.replacement? rs with
    | none =>
      rw [callsFrom_cons_of_none hl, areProper, areProper_callsFrom rs 0 fs h.2, Bool.and_true]
      exact h.1
    | some r =>
      rw [callsFrom_cons_of_some hl, areProper, areProper, areProper_callsFrom rs _ fs h.2]
      rfl

theorem areProper_callsAll {fs : List Form} (h : areProper fs = true) :
    areProper (callsAll rs fs) = true := areProper_callsFrom rs 0 fs h

end Form

end BulkMemory
