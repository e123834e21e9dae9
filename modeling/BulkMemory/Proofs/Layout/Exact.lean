import BulkMemory.Proofs.Layout.Names
import BulkMemory.Proofs.Layout.Partners

/-!
# The layout, read off the tokens

What the layout of a module says, without a stack: `Layout.Describes` relates it to the tokens that
carry meaning. The anchor is at the partner of the first parenthesis of the top level that begins a
module form, or behind the last closing parenthesis. `Layout.ofTokens_exact` adds which modules have a
layout and what the errors report.
-/

namespace BulkMemory
set_option autoImplicit false

open Lexeme

namespace Form

mutual

theorem areBalanced_lexemes : (f : Form) → f.isProper = true → AreBalanced f.lexemes
  | atom l, hf => by
    rw [isProper, Bool.not_eq_true'] at hf
    exact areBalanced_singleton hf
  | group items, hf => by
    rw [isProper] at hf
    exact areBalanced_group rfl rfl (areBalanced_lexemesAll items hf)

/-- The parentheses of a forest are balanced. -/
theorem areBalanced_lexemesAll : (fs : List Form) → areProper fs = true →
    AreBalanced (lexemesAll fs)
  | [], _ => areBalanced_nil
  | f :: fs, hfs => by
    rw [areProper, Bool.and_eq_true] at hfs
    exact (areBalanced_lexemes f hfs.1).append (areBalanced_lexemesAll fs hfs.2)

end

/-- An opening parenthesis in front of which all groups are closed begins a group of the forest. -/
theorem exists_group_of_opening : (fs : List Form) → areProper fs = true →
    ∀ (front gap : List Lexeme) (o : Lexeme), lexemesAll fs = front ++ o :: gap →
      o.kind = .leftParen → nesting front = 0 →
      ∃ items, group items ∈ fs ∧ ∃ rest, gap = lexemesAll items ++ closing :: rest
  | [], _, front, gap, o, hcut, _, _ => by simp at hcut
  | atom l :: fs, hfs, front, gap, o, hcut, ho, hfront => by
    rw [areProper, isProper, Bool.and_eq_true, Bool.not_eq_true'] at hfs
    cases front with
    | nil =>
      obtain ⟨rfl, -⟩ := List.cons.inj hcut
      simp [isParen, ho] at hfs
    | cons a front =>
      obtain ⟨rfl, htail⟩ := List.cons.inj hcut
      rw [nesting_cons, nesting_eq_zero (by simpa using hfs.1), Int.zero_add] at hfront
      obtain ⟨items, hitems, hgap⟩ := exists_group_of_opening fs hfs.2 front gap o htail ho hfront
      exact ⟨items, List.mem_cons_of_mem _ hitems, hgap⟩
  | group items :: fs, hfs, front, gap, o, hcut, ho, hfront => by
    rw [areProper, isProper, Bool.and_eq_true] at hfs
    rw [lexemesAll, lexemes, List.cons_append, List.append_assoc, List.singleton_append] at hcut
    cases front with
    | nil =>
      obtain ⟨-, rfl⟩ := List.cons.inj hcut
      exact ⟨items, List.mem_cons_self, lexemesAll fs, rfl⟩
    | cons a front =>
      obtain ⟨rfl, htail⟩ := List.cons.inj hcut
      rw [nesting_cons, nesting_of_leftParen rfl] at hfront
      have hstays := (areBalanced_lexemesAll items hfs.1).staysOpen
      -- inside the group its own parenthesis is still open
      rcases List.append_eq_append_iff.1 htail with ⟨more, rfl, hmore⟩ | ⟨more, hitems, -⟩
      · cases more with
        | nil =>
          have hinside := hstays _ (List.prefix_refl _)
          rw [List.append_nil] at hfront
          omega
        | cons b more =>
          obtain ⟨rfl, hbehind⟩ := List.cons.inj hmore
          rw [nesting_append, nesting_lexemesAll items hfs.1, nesting_cons,
            nesting_of_rightParen rfl] at hfront
          obtain ⟨items, hitems, hgap⟩ :=
            exists_group_of_opening fs hfs.2 more gap o hbehind ho (by omega)
          exact ⟨items, List.mem_cons_of_mem _ hitems, hgap⟩
      · have hinside := hstays front (hitems ▸ List.prefix_append front more)
        omega

/-- Where a forest has no group, it has no parenthesis. -/
theorem isParen_of_no_group {fs : List Form} (hproper : areProper fs = true)
    (h : fs.any isGroup = false) : ∀ l ∈ lexemesAll fs, l.isParen = false := by
  induction fs with
  | nil => simp
  | cons f fs ih =>
    rw [areProper, Bool.and_eq_true] at hproper
    rw [List.any_cons, Bool.or_eq_false_iff] at h
    cases f with
    | group items => cases h.1
    | atom l =>
      rw [isProper, Bool.not_eq_true'] at hproper
      exact List.forall_mem_cons.2 ⟨hproper.1, ih hproper.2 h.2⟩

end Form

namespace Token

/-- A parenthesis of the top level that begins a module form. -/
def OpensModule (before : List Token) (o : Token) (after : List Token) : Prop :=
  o.kind = .leftParen ∧ nesting (before.map toLexeme) = 0 ∧
    after.head?.any (·.isKeyword "module") = true

end Token

namespace Layout

open Token Form

/-! ### The top level of a forest -/

/-- Where a forest has no module form, no parenthesis of its top level begins one. -/
theorem not_opensModule {fs : List Form} {us front gap : List Token} {o : Token}
    (hproper : areProper fs = true) (hus : us.map toLexeme = lexemesAll fs)
    (hmodule : fs.any isModule = false) (hcut : us = front ++ o :: gap) (more : List Token) :
    ¬ OpensModule front o (gap ++ more) := by
  rintro ⟨ho, hfront, hword⟩
  rw [hcut, List.map_append, List.map_cons] at hus
  obtain ⟨items, hitems, rest, hgap⟩ :=
    exists_group_of_opening fs hproper _ _ _ hus.symm ho hfront
  obtain ⟨vs, gap, rfl, hvs, hgap⟩ := List.map_eq_append_iff.1 hgap
  obtain ⟨c, ws, rfl, hc, -⟩ := List.map_eq_cons_iff.1 hgap
  rw [List.append_assoc, List.cons_append, any_isKeyword_head? hvs hc] at hword
  exact absurd hword (by simpa using List.any_eq_false.1 hmodule _ hitems)

/-- In a forest, the tokens of a group stand between partners. -/
theorem Spells.partners {ts us vs ws : List Token} {before items behind : List Form} {o c : Token}
    (h : Spells ts before items behind us o vs c ws) : Partners o vs c := by
  refine ⟨congrArg Lexeme.kind h.opens, congrArg Lexeme.kind h.closes, ?_⟩
  rw [h.items]
  exact areBalanced_lexemesAll items h.proper_parts.2.1

/-! ### The layout -/

/-- What the layout of a module says about the tokens that carry meaning. -/
structure Describes (layout : Layout) (us : List Token) : Prop where
  wrapped_iff : layout.wrapped = true ↔ ∃ before o after,
    us = before ++ o :: after ∧ OpensModule before o after
  in_module : layout.wrapped = true → ∃ before o between c behind,
    FirstWith OpensModule us before o (between ++ c :: behind) ∧ Partners o between c ∧
      layout.anchor = c.start
  behind_last : layout.wrapped = false → ∃ before c behind, us = before ++ c :: behind ∧
    c.kind = .rightParen ∧ (∀ t ∈ behind, t.kind ≠ .rightParen) ∧ layout.anchor = c.stop
  names : ∀ name, name ∈ layout.functionNames ↔ HasHeader us name
  nodup : layout.functionNames.Nodup

variable {ts us vs ws : List Token} {before items behind : List Form} {o c : Token}

/-- The group with fields in a module form is the first that begins with the keyword. -/
theorem Spells.firstWith (h : Spells ts before items behind us o vs c ws)
    (hnone : before.any isModule = false) (hmodule : (group items).isModule = true) :
    FirstWith OpensModule (significant ts) us o (vs ++ c :: ws) := by
  refine ⟨h.tokens, ⟨congrArg Lexeme.kind h.opens, ?_, ?_⟩, ?_⟩
  · rw [h.before_group]
    exact nesting_lexemesAll before h.proper_parts.1
  · rwa [any_isKeyword_head? h.items h.closes]
  · intro front y gap hcut
    exact not_opensModule h.proper_parts.1 h.before_group hnone hcut _

theorem Spells.noneWith (h : Spells ts before items behind us o vs c ws)
    (hnone : (before ++ group items :: behind).any isModule = false) :
    NoneWith OpensModule (significant ts) := by
  intro front y gap hcut
  have hall := not_opensModule h.proper h.meaning_eq hnone hcut []
  rwa [List.append_nil] at hall

/-- Behind the last group no parenthesis closes another. -/
theorem Spells.kind_ne (h : Spells ts before items behind us o vs c ws)
    (hnone : behind.any isGroup = false) : ∀ t ∈ ws, t.kind ≠ .rightParen := by
  intro t ht hkind
  have hmem : t.toLexeme ∈ lexemesAll behind := h.behind_group ▸ List.mem_map_of_mem ht
  have hparen := isParen_of_no_group h.proper_parts.2.2 hnone t.toLexeme hmem
  simp [isParen, hkind] at hparen

theorem describes_of_ofTokens {layout : Layout}
    (hparens : ∀ t ∈ significant ts, (t.kind = .leftParen → t.toLexeme = opening) ∧
      (t.kind = .rightParen → t.toLexeme = closing))
    (h : ofTokens ts = .ok layout) : layout.Describes (significant ts) := by
  obtain ⟨before, items, behind, us, o, vs, c, ws, hhosts, hspells, hanchor⟩ :=
    exists_host hparens h
  have hnames := functionNames_of_ofTokens h
  have hmem : ∀ name, name ∈ layout.functionNames ↔ HasHeader (significant ts) name := by
    intro name
    rw [hnames, List.mem_eraseDups, mem_namedFunctions_iff]
  have hnodup : layout.functionNames.Nodup := by
    rw [hnames]
    exact nodup_eraseDups _
  cases hwrapped : layout.wrapped with
  | true =>
    rw [hwrapped] at hhosts hanchor
    cases hhosts with
    | inModule hnone hmodule =>
      have hfirst := hspells.firstWith hnone hmodule
      have hexists : ∃ before o after, significant ts = before ++ o :: after ∧
          OpensModule before o after := ⟨us, o, vs ++ c :: ws, hfirst.cut, hfirst.holds⟩
      refine ⟨iff_of_true hwrapped hexists, fun _ => ?_, fun hbare => ?_, hmem, hnodup⟩
      · exact ⟨us, o, vs, c, ws, hfirst, hspells.partners, hanchor⟩
      · rw [hwrapped] at hbare
        cases hbare
  | false =>
    rw [hwrapped] at hhosts hanchor
    cases hhosts with
    | behindLast hnone hlast =>
      have hnowhere : ¬ ∃ before o after, significant ts = before ++ o :: after ∧
          OpensModule before o after := by
        rintro ⟨before, o, after, hcut, hopens⟩
        exact hspells.noneWith hnone before o after hcut hopens
      refine ⟨iff_of_false (by simp [hwrapped]) hnowhere, fun hmodule => ?_, fun _ => ?_, hmem, hnodup⟩
      · rw [hwrapped] at hmodule
        cases hmodule
      · exact ⟨us ++ o :: vs, c, ws, by rw [hspells.tokens]; simp,
          congrArg Lexeme.kind hspells.closes, hspells.kind_ne hlast, hanchor⟩

/-! ### The outcome of the analysis -/

/-- What the analysis of a module comes to, by the parentheses among the tokens that carry meaning. -/
inductive Analysed (us : List Token) : Except PassError Layout → Prop where
  | noClosing : (∀ t ∈ us, t.kind ≠ .rightParen) → Analysed us (.error .noClosingDelimiter)
  | unmatched {p : Position} : (∃ t ∈ us, t.kind = .rightParen) → FirstUnmatched us p →
      Analysed us (.error (.unbalanced p))
  | ok {layout : Layout} : (∃ t ∈ us, t.kind = .rightParen) → NoneWith LacksOpening us →
      NoneWith LacksClosing us → Analysed us (.ok layout)

theorem analysed_ofTokens (ts : List Token) : Analysed (significant ts) (ofTokens ts) := by
  cases hany : (significant ts).any (·.kind == .rightParen) with
  | false =>
    rw [ofTokens, hany]
    exact .noClosing fun t ht => by simpa using List.any_eq_false.1 hany t ht
  | true =>
    have hclosing : ∃ t ∈ significant ts, t.kind = .rightParen := by simpa using hany
    have hmatched : Matched (significant ts) (closeAll [] {} (significant ts)) :=
      matched_closeAll pending_nil noneWith_nil {} (significant ts)
    rw [ofTokens, hany]
    change Analysed (significant ts) (closeAll [] {} (significant ts) >>= _)
    cases hends : closeAll [] {} (significant ts) with
    | error e =>
      rw [hends] at hmatched
      cases hmatched with
      | unmatched hfirst => exact .unmatched hclosing hfirst
    | ok ends =>
      rw [hends] at hmatched
      cases hmatched with
      | ok hopening hclosed =>
        -- with a closing parenthesis the end of a form is known, so there is no error in the end
        have hlast : ends.last? ≠ none := last?_of_closeAll hends (.inr (.inr hclosing))
        obtain ⟨module?, last?⟩ := ends
        cases module? with
        | some offset => exact .ok hclosing hopening hclosed
        | none =>
          cases last? with
          | some offset => exact .ok hclosing hopening hclosed
          | none => exact absurd rfl hlast

theorem FirstUnmatched.unique {p q : Position} (hp : FirstUnmatched us p)
    (hq : FirstUnmatched us q) : p = q := by
  cases hp with
  | closing hp =>
    cases hq with
    | closing hq => rw [(hp.unique hq).2.1]
    | opening hnone _ => exact absurd hnone hp.not_none
  | opening hnone hp =>
    cases hq with
    | closing hq => exact absurd hnone hq.not_none
    | opening _ hq => rw [(hp.unique hq).2.1]

theorem FirstUnmatched.not_matched {p : Position} (h : FirstUnmatched us p)
    (hopening : NoneWith LacksOpening us) : ¬ NoneWith LacksClosing us := by
  cases h with
  | closing hfirst => exact absurd hopening hfirst.not_none
  | opening _ hfirst => exact hfirst.not_none

/-! ### The three outcomes -/

variable {result : Except PassError Layout}

theorem Analysed.noClosing_iff (h : Analysed us result) :
    result = .error .noClosingDelimiter ↔ ¬ ∃ t ∈ us, t.kind = .rightParen := by
  cases h with
  | noClosing hnone => exact iff_of_true rfl (by simpa using hnone)
  | unmatched hclosing _ => exact iff_of_false (by simp) (not_not_intro hclosing)
  | ok hclosing _ _ => exact iff_of_false (by simp) (not_not_intro hclosing)

theorem Analysed.unbalanced_iff (h : Analysed us result) (p : Position) :
    result = .error (.unbalanced p) ↔ (∃ t ∈ us, t.kind = .rightParen) ∧ FirstUnmatched us p := by
  cases h with
  | noClosing hnone =>
    refine iff_of_false (by simp) ?_
    rintro ⟨⟨t, ht, hkind⟩, -⟩
    exact hnone t ht hkind
  | @unmatched q hclosing hfirst =>
    constructor
    · intro heq
      cases heq
      exact ⟨hclosing, hfirst⟩
    · rintro ⟨-, hp⟩
      rw [hfirst.unique hp]
  | ok _ hopening hclosed =>
    refine iff_of_false (by simp) ?_
    rintro ⟨-, hp⟩
    exact hp.not_matched hopening hclosed

theorem Analysed.ok_iff (h : Analysed us result) :
    (∃ layout, result = .ok layout) ↔
      (∃ t ∈ us, t.kind = .rightParen) ∧ NoneWith LacksOpening us ∧ NoneWith LacksClosing us := by
  cases h with
  | noClosing hnone =>
    refine iff_of_false (by simp) ?_
    rintro ⟨⟨t, ht, hkind⟩, -⟩
    exact hnone t ht hkind
  | unmatched _ hfirst =>
    refine iff_of_false (by simp) ?_
    rintro ⟨-, hopening, hclosed⟩
    exact hfirst.not_matched hopening hclosed
  | ok hclosing hopening hclosed => exact iff_of_true ⟨_, rfl⟩ ⟨hclosing, hopening, hclosed⟩

theorem exists_rightParen_significant (ts : List Token) :
    (∃ t ∈ significant ts, t.kind = .rightParen) ↔ ∃ t ∈ ts, t.kind = .rightParen := by
  constructor
  · rintro ⟨t, ht, hkind⟩
    exact ⟨t, (List.mem_filter.1 ht).1, hkind⟩
  · rintro ⟨t, ht, hkind⟩
    exact ⟨t, List.mem_filter.2 ⟨ht, by simp [isTrivia, hkind, Kind.isTrivia]⟩, hkind⟩

/-- What the analysis of a module finds is right, and an error names the parenthesis to blame. -/
structure IsExact (ts : List Token) (result : Except PassError Layout) : Prop where
  noClosing_iff : result = .error .noClosingDelimiter ↔ ∀ t ∈ ts, t.kind ≠ .rightParen
  unbalanced_iff : ∀ p, result = .error (.unbalanced p) ↔
    (∃ t ∈ ts, t.kind = .rightParen) ∧ FirstUnmatched (significant ts) p
  ok_iff : (∃ layout, result = .ok layout) ↔ (∃ t ∈ ts, t.kind = .rightParen) ∧
    NoneWith LacksOpening (significant ts) ∧ NoneWith LacksClosing (significant ts)
  describes : ∀ layout, result = .ok layout → layout.Describes (significant ts)

/-- The analysis of a module is exact. Without a closing parenthesis it says so. Otherwise it reports
the first closing parenthesis without a partner, or else the first opening one without, or else there
is a layout, which describes the module. -/
theorem ofTokens_exact {source : String} (h : tokenize source = .ok ts) :
    IsExact ts (ofTokens ts) := by
  have hanalysed := analysed_ofTokens ts
  have hnone : (∀ t ∈ ts, t.kind ≠ .rightParen) ↔ ¬ ∃ t ∈ ts, t.kind = .rightParen := by simp
  constructor
  · rw [hnone, ← exists_rightParen_significant]
    exact hanalysed.noClosing_iff
  · intro p
    rw [← exists_rightParen_significant]
    exact hanalysed.unbalanced_iff p
  · rw [← exists_rightParen_significant]
    exact hanalysed.ok_iff
  · intro layout hlayout
    obtain ⟨ls, rfl, -, htiles⟩ := tiles_of_tokenize h
    exact describes_of_ofTokens (parens_placeAll htiles 0 .start) hlayout

/-- A comment in front of the keyword, and a second module form behind the first. -/
theorem ofTokens_exact_two_modules :
    ∃ ts, tokenize "(a)( (;c;)module(func $f))(module)" = .ok ts ∧ IsExact ts (ofTokens ts) ∧
      ofTokens ts = .ok ⟨25, true, ["$f"]⟩ := by
  have hlexemes : Lexer.run "(a)( (;c;)module(func $f))(module)".toList =
      ([opening, ⟨.keyword, "a"⟩, closing, opening, ⟨.blank, " "⟩, ⟨.blockComment, "(;c;)"⟩,
        ⟨.keyword, "module"⟩, opening, ⟨.keyword, "func"⟩, ⟨.blank, " "⟩, ⟨.id, "$f"⟩, closing,
        closing, opening, ⟨.keyword, "module"⟩, closing], none) := by
    decide +kernel
  have htokens := tokenize.eq_def "(a)( (;c;)module(func $f))(module)"
  rw [hlexemes] at htokens
  exact ⟨_, htokens, ofTokens_exact htokens, rfl⟩

end Layout

end BulkMemory
