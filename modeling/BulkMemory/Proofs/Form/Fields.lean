import BulkMemory.Proofs.Form.Calls

/-!
# The fields of a module

A forest is a module with the groups of its first `(module …)` form for fields, or with all of its
groups where there is no such form. `Form.Grown` adds forms behind the fields of a forest and
`Form.fields_callsAll` exchanges instructions inside them; neither moves a field, so every function
keeps its index.
-/

namespace BulkMemory
set_option autoImplicit false

namespace Form

open Lexeme

/-- Whether a form is a group. -/
def isGroup : Form → Bool
  | atom _ => false
  | group _ => true

/-- Whether a form is a group that begins with the given keyword. -/
def isHeadedBy (word : String) : Form → Bool
  | group (atom l :: _) => l.isKeyword word
  | _ => false

/-- Whether a form is a module. -/
def isModule (f : Form) : Bool := f.isHeadedBy "module"

/-- The fields of a module, be they in a form of their own or not. -/
def fields (forest : List Form) : List Form :=
  match forest.find? isModule with
  | some (group items) => items.filter isGroup
  | _ => forest.filter isGroup

/-- Whether a field is a function of the module. -/
def isFunction (f : Form) : Bool := f.isHeadedBy "func"

/-- Whether a field takes up a function index: it is a function, or an import of one. -/
def hasFunctionIndex : Form → Bool
  | atom _ => false
  | group items =>
    isFunction (group items) || isHeadedBy "import" (group items) && items.any (isHeadedBy "func")

theorem isGroup_of_isHeadedBy {f : Form} {word : String} (h : f.isHeadedBy word = true) :
    f.isGroup = true := by
  cases f with
  | atom l => cases h
  | group items => rfl

/-- Only the groups among some forms can begin with a keyword. -/
theorem any_isHeadedBy_filter (word : String) (fs : List Form) :
    (fs.filter isGroup).any (isHeadedBy word) = fs.any (isHeadedBy word) := by
  rw [List.any_filter]
  refine congrArg (List.any fs) (funext fun f => ?_)
  cases hf : f.isHeadedBy word with
  | false => rw [Bool.and_false]
  | true => rw [isGroup_of_isHeadedBy hf, Bool.and_true]

theorem find?_isModule_filter (fs : List Form) :
    (fs.filter isGroup).find? isModule = fs.find? isModule := by
  rw [List.find?_filter]
  refine congrArg (List.find? · fs) (funext fun f => ?_)
  cases hf : f.isModule with
  | false => simp
  | true => simp [isGroup_of_isHeadedBy hf]

/-! ### Calls in the fields -/

variable {rs : List Replacement}

theorem filter_isGroup_callsFrom (rs : List Replacement) : (skip : Nat) → (fs : List Form) →
    skip ≤ (zeros fs).length →
      (callsFrom rs skip fs).filter isGroup = (fs.filter isGroup).map (withCalls rs)
  | skip, [], _ => by simp [callsFrom]
  | skip + 1, f :: fs, h => by
    cases hzero : f.first.isZero with
    | false => simp [zeros, hzero] at h
    | true =>
      obtain ⟨l, rfl⟩ := exists_atom_of_isZero hzero
      have hskip : skip ≤ (zeros fs).length := by simpa [zeros, hzero] using h
      exact filter_isGroup_callsFrom rs skip fs hskip
  | 0, group items :: fs, _ => by
    rw [callsFrom_cons_of_none replacement?_opening]
    exact congrArg (withCalls rs (group items) :: ·)
      (filter_isGroup_callsFrom rs 0 fs (Nat.zero_le _))
  | 0, atom l :: fs, _ => by
    cases hl : l.replacement? rs with
    | none =>
      rw [callsFrom_cons_of_none hl]
      exact filter_isGroup_callsFrom rs 0 fs (Nat.zero_le _)
    | some r =>
      rw [callsFrom_cons_of_some hl]
      exact filter_isGroup_callsFrom rs _ fs (length_takenIndices_le ..)

/-- An exchange turns groups into groups and adds none. -/
theorem filter_isGroup_callsAll (rs : List Replacement) (fs : List Form) :
    (callsAll rs fs).filter isGroup = (fs.filter isGroup).map (withCalls rs) :=
  filter_isGroup_callsFrom rs 0 fs (Nat.zero_le _)

/-- An exchange leaves the keyword of a group alone, unless that is an instruction. -/
theorem isHeadedBy_withCalls {word : String} (hop : Op.ofMnemonic? word = none)
    (hcall : word ≠ "call") (f : Form) : (f.withCalls rs).isHeadedBy word = f.isHeadedBy word := by
  match f with
  | atom l => rfl
  | group [] => rfl
  | group (group items :: fs) =>
    rw [withCalls, callsFrom_cons_of_none replacement?_opening]
    rfl
  | group (atom l :: fs) =>
    cases hl : l.replacement? rs with
    | none =>
      rw [withCalls, callsFrom_cons_of_none hl]
      rfl
    | some r =>
      have hword : r.op.mnemonic ≠ word := by
        rintro rfl
        rw [Op.ofMnemonic?_mnemonic] at hop
        cases hop
      have htext : l.text = r.op.mnemonic := (replacement?_eq_some hl).2.2
      rw [withCalls, callsFrom_cons_of_some hl]
      simp only [isHeadedBy, isKeyword, htext, beq_eq_false_iff_ne.2 hword,
        beq_eq_false_iff_ne.2 hcall.symm, Bool.and_false]

theorem any_isHeadedBy_callsAll {word : String} (hop : Op.ofMnemonic? word = none)
    (hcall : word ≠ "call") (fs : List Form) :
    (callsAll rs fs).any (isHeadedBy word) = fs.any (isHeadedBy word) := by
  rw [← any_isHeadedBy_filter, filter_isGroup_callsAll, List.any_map, ← any_isHeadedBy_filter]
  exact congrArg (List.any _) (funext (isHeadedBy_withCalls hop hcall))

theorem isModule_withCalls (f : Form) : (f.withCalls rs).isModule = f.isModule :=
  isHeadedBy_withCalls (by decide) (by decide) f

theorem any_isModule_callsAll (fs : List Form) :
    (callsAll rs fs).any isModule = fs.any isModule :=
  any_isHeadedBy_callsAll (by decide) (by decide) fs

theorem any_isGroup_callsAll (fs : List Form) : (callsAll rs fs).any isGroup = fs.any isGroup := by
  have hany (gs : List Form) : gs.any isGroup = !(gs.filter isGroup).isEmpty := by
    induction gs with
    | nil => rfl
    | cons g gs ih => cases hg : g.isGroup <;> simp [hg, ih]
  rw [hany, hany, filter_isGroup_callsAll, List.isEmpty_map]

theorem isFunction_withCalls (f : Form) : (f.withCalls rs).isFunction = f.isFunction :=
  isHeadedBy_withCalls (by decide) (by decide) f

theorem hasFunctionIndex_withCalls (f : Form) :
    (f.withCalls rs).hasFunctionIndex = f.hasFunctionIndex := by
  cases f with
  | atom l => rfl
  | group items =>
    have himport : (group (callsAll rs items)).isHeadedBy "import" =
        (group items).isHeadedBy "import" :=
      isHeadedBy_withCalls (by decide) (by decide) (group items)
    have hitems : (callsAll rs items).any (isHeadedBy "func") = items.any (isHeadedBy "func") :=
      any_isHeadedBy_callsAll (by decide) (by decide) items
    have hfunc : (group (callsAll rs items)).isFunction = (group items).isFunction :=
      isFunction_withCalls (group items)
    rw [withCalls_group, hasFunctionIndex, hasFunctionIndex, himport, hitems, hfunc]

/-- The fields of a module with calls are its fields with calls. -/
theorem fields_callsAll (rs : List Replacement) (forest : List Form) :
    fields (callsAll rs forest) = (fields forest).map (withCalls rs) := by
  have hmodule : (callsAll rs forest).find? isModule =
      (forest.find? isModule).map (withCalls rs) := by
    rw [← find?_isModule_filter, filter_isGroup_callsAll, List.find?_map, ← find?_isModule_filter]
    exact congrArg (fun p => (List.find? p _).map (withCalls rs)) (funext isModule_withCalls)
  rw [fields, fields, hmodule]
  cases hfind : forest.find? isModule with
  | none => exact filter_isGroup_callsAll rs forest
  | some f =>
    cases f with
    | atom l => exact filter_isGroup_callsAll rs forest
    | group items => exact filter_isGroup_callsAll rs items

/-- Exchanging a forest at a group. -/
theorem callsAll_append_group {before items behind : List Form}
    (h : areProper (before ++ group items :: behind) = true) :
    callsAll rs (before ++ group items :: behind) =
      callsAll rs before ++ group (callsAll rs items) :: callsAll rs behind := by
  have hparts : areProper before = true ∧ areProper items = true ∧ areProper behind = true := by
    simpa [areProper, isProper] using h
  have hproper : areProper (callsAll rs before ++ group (callsAll rs items) :: callsAll rs behind) =
      true := by
    simp [areProper, isProper, areProper_callsAll, hparts]
  have hlexemes : lexemesAll (callsAll rs (before ++ group items :: behind)) =
      lexemesAll (callsAll rs before ++ group (callsAll rs items) :: callsAll rs behind) := by
    simp only [lexemesAll_callsAll, lexemesAll_append, lexemesAll, lexemes, List.cons_append,
      List.append_assoc, List.nil_append]
    rw [calls_append_paren (by decide), calls_append_paren (by decide)]
  have hread : ofLexemes? (lexemesAll (callsAll rs (before ++ group items :: behind))) = _ :=
    ofLexemes?_lexemesAll (areProper_callsAll h)
  rw [hlexemes, ofLexemes?_lexemesAll hproper] at hread
  exact (Option.some.inj hread).symm

/-! ### New fields -/

/-- The group of a forest at which new fields go: its first module form, or its last group where it
has no module form. -/
inductive Hosts : (wrapped : Bool) → (before items behind : List Form) → Prop where
  | inModule {before items behind : List Form} :
      before.any isModule = false → (group items).isModule = true →
      Hosts true before items behind
  | behindLast {before items behind : List Form} :
      (before ++ group items :: behind).any isModule = false → behind.any isGroup = false →
      Hosts false before items behind

/-- Every forest with a group has one at which new fields go. -/
theorem exists_hosts {forest : List Form} (h : forest.any isGroup = true) :
    ∃ wrapped before items behind,
      forest = before ++ group items :: behind ∧ Hosts wrapped before items behind := by
  cases hmodule : forest.any isModule with
  | true =>
    obtain ⟨f, hf⟩ : ∃ f, forest.find? isModule = some f := by
      rw [← Option.isSome_iff_exists, List.find?_isSome]
      simpa using hmodule
    obtain ⟨hsome, before, behind, rfl, hnone⟩ := List.find?_eq_some_iff_append.1 hf
    cases f with
    | atom l => cases hsome
    | group items =>
      exact ⟨true, before, items, behind, rfl,
        .inModule (List.any_eq_false.2 fun g hg => by simpa using hnone g hg) hsome⟩
  | false =>
    obtain ⟨f, hf⟩ : ∃ f, forest.reverse.find? isGroup = some f := by
      rw [← Option.isSome_iff_exists, List.find?_isSome]
      simpa using h
    obtain ⟨hsome, behind, before, hsplit, hnone⟩ := List.find?_eq_some_iff_append.1 hf
    cases f with
    | atom l => cases hsome
    | group items =>
      obtain rfl : forest = before.reverse ++ group items :: behind.reverse := by
        rw [← List.reverse_reverse forest, hsplit]
        simp
      exact ⟨false, before.reverse, items, behind.reverse, rfl,
        .behindLast hmodule (List.any_eq_false.2 fun g hg => by
          simpa using hnone g (List.mem_reverse.1 hg))⟩

/-- New fields go inside a group if and only if there is a module form. -/
theorem Hosts.wrapped_eq {wrapped : Bool} {before items behind : List Form}
    (h : Hosts wrapped before items behind) :
    wrapped = (before ++ group items :: behind).any isModule := by
  cases h with
  | inModule _ hmodule => simp [hmodule]
  | behindLast hnone _ => exact hnone.symm

/-- A list is cut in one way in front of the first member that passes a test. -/
theorem eq_of_append_cons_eq {α : Type} {test : α → Bool} {as bs xs ys : List α} {a b : α}
    (has : as.any test = false) (ha : test a = true) (hbs : bs.any test = false) (hb : test b = true)
    (heq : as ++ a :: xs = bs ++ b :: ys) : as = bs ∧ a = b ∧ xs = ys := by
  have hcut {cs zs : List α} {c : α} (hcs : cs.any test = false) (hc : test c = true) :
      (cs ++ c :: zs).takeWhile (!test ·) = cs := by
    rw [List.takeWhile_append_of_pos (by simpa using hcs)]
    simp [hc]
  obtain rfl : as = bs := (hcut has ha).symm.trans ((congrArg _ heq).trans (hcut hbs hb))
  exact ⟨rfl, List.cons.inj (List.append_cancel_left heq)⟩

/-- In a forest there is one group at which new fields go. -/
theorem Hosts.unique {wrapped wrapped' : Bool} {before items behind before' items' behind' : List Form}
    (h : Hosts wrapped before items behind) (h' : Hosts wrapped' before' items' behind')
    (heq : before ++ group items :: behind = before' ++ group items' :: behind') :
    before = before' ∧ items = items' ∧ behind = behind' := by
  have hwrapped : wrapped = wrapped' := by rw [h.wrapped_eq, heq, ← h'.wrapped_eq]
  cases h with
  | inModule hnone hmodule =>
    cases h' with
    | inModule hnone' hmodule' =>
      obtain ⟨hbefore, hgroup, hbehind⟩ := eq_of_append_cons_eq hnone hmodule hnone' hmodule' heq
      exact ⟨hbefore, group.inj hgroup, hbehind⟩
    | behindLast => cases hwrapped
  | behindLast _ hlast =>
    cases h' with
    | inModule => cases hwrapped
    | behindLast _ hlast' =>
      -- the last group is the first one from behind
      have hreverse := congrArg List.reverse heq
      simp only [List.reverse_append, List.reverse_cons, List.append_assoc, List.singleton_append]
        at hreverse
      have hfirst : behind.reverse.any isGroup = false := by rwa [List.any_reverse]
      have hfirst' : behind'.reverse.any isGroup = false := by rwa [List.any_reverse]
      obtain ⟨hbehind, hgroup, hbefore⟩ := eq_of_append_cons_eq hfirst rfl hfirst' rfl hreverse
      exact ⟨List.reverse_inj.1 hbefore, group.inj hgroup, List.reverse_inj.1 hbehind⟩

/-- Calls move no field. -/
theorem Hosts.callsAll {wrapped : Bool} {before items behind : List Form}
    (h : Hosts wrapped before items behind) (rs : List Replacement) :
    Hosts wrapped (callsAll rs before) (callsAll rs items) (callsAll rs behind) := by
  have hitems : (group (Form.callsAll rs items)).isModule = (group items).isModule :=
    isModule_withCalls (group items)
  cases h with
  | inModule hbefore hmodule =>
    exact .inModule ((any_isModule_callsAll before).trans hbefore) (hitems.trans hmodule)
  | behindLast hnone hbehind =>
    refine .behindLast ?_ ((any_isGroup_callsAll behind).trans hbehind)
    rw [List.any_append, List.any_cons] at hnone ⊢
    rwa [any_isModule_callsAll, any_isModule_callsAll, hitems]

/-- Forms are added to a forest, as the last items of its first module form, or behind its last group
where it has no module form. -/
inductive Grown (new : List Form) : (wrapped : Bool) → (forest forest' : List Form) → Prop where
  | inModule {before items behind : List Form} : Hosts true before items behind →
      Grown new true (before ++ group items :: behind) (before ++ group (items ++ new) :: behind)
  | behindLast {before items behind : List Form} : Hosts false before items behind →
      Grown new false (before ++ group items :: behind)
        (before ++ group items :: (new ++ behind))

theorem fields_of_no_module {forest : List Form} (h : forest.any isModule = false) :
    fields forest = forest.filter isGroup := by
  have hnone : forest.find? isModule = none := by
    simpa only [List.any_eq_false, List.find?_eq_none] using h
  rw [fields, hnone]

theorem Hosts.fields_eq {before items behind : List Form} (h : Hosts true before items behind) :
    fields (before ++ group items :: behind) = items.filter isGroup := by
  cases h with
  | inModule hbefore hmodule =>
    have hnone : before.find? isModule = none := by
      simpa only [List.any_eq_false, List.find?_eq_none] using hbefore
    rw [fields, List.find?_append, hnone, Option.none_or, List.find?_cons_of_pos hmodule]

namespace Grown

variable {new forest forest' : List Form} {wrapped : Bool}

theorem inModule_hosts {before items behind : List Form} (h : Hosts true before items behind)
    (new : List Form) : Hosts true before (items ++ new) behind := by
  cases h with
  | inModule hbefore hmodule =>
    refine .inModule hbefore ?_
    cases items with
    | nil => cases hmodule
    | cons f fs => cases f <;> exact hmodule

theorem any_isModule_eq_false {before items behind : List Form}
    (h : Hosts false before items behind) (hmodule : new.any isModule = false) :
    (before ++ group items :: (new ++ behind)).any isModule = false := by
  cases h with
  | behindLast hnone =>
    rw [List.any_append, List.any_cons] at hnone ⊢
    rwa [List.any_append, hmodule, Bool.false_or]

/-- A forest that has grown has a module form if and only if it had one before. -/
theorem any_isModule (h : Grown new wrapped forest forest') (hmodule : new.any isModule = false) :
    forest'.any isModule = wrapped := by
  cases h with
  | inModule hhosts => exact (inModule_hosts hhosts new).wrapped_eq.symm
  | behindLast hhosts => exact any_isModule_eq_false hhosts hmodule

theorem any_isGroup (h : Grown new wrapped forest forest') : forest'.any isGroup = true := by
  cases h <;> simp [isGroup]

/-- The new forms are the last fields, and the others stay where they are. -/
theorem fields (h : Grown new wrapped forest forest') (hgroup : ∀ f ∈ new, f.isGroup = true)
    (hmodule : new.any isModule = false) : fields forest' = fields forest ++ new := by
  have hnew : new.filter isGroup = new := List.filter_eq_self.2 hgroup
  cases h with
  | inModule hhosts =>
    rw [(inModule_hosts hhosts new).fields_eq, hhosts.fields_eq, List.filter_append, hnew]
  | behindLast hhosts =>
    have hnone := hhosts.wrapped_eq.symm
    rw [fields_of_no_module hnone, fields_of_no_module (any_isModule_eq_false hhosts hmodule)]
    cases hhosts with
    | behindLast _ hbehind =>
      have hrest := List.filter_eq_nil_iff.2 (List.any_eq_false.1 hbehind)
      simp [List.filter_append, List.filter_cons, hnew, hrest, isGroup]

end Grown

end Form

end BulkMemory
