import BulkMemory.Proofs.Layout.Balance
import BulkMemory.Proofs.Token.First

/-!
# The parenthesis without a partner

Two parentheses are partners if what stands between them is balanced (`Token.Partners`). The matching
keeps a stack of the openings that wait for their partner; `Layout.Pending` says where they stand in
the text read so far. So the parenthesis that a failed matching reports is the first closing one
without a partner or, where each of these has one, the first opening one without
(`Layout.matched_closeAll`).
-/

namespace BulkMemory
set_option autoImplicit false

namespace Lexeme

variable {depth depth' : Int} {as bs : List Lexeme}

theorem Closes.append (h : Closes depth as) (h' : Closes depth' bs) :
    Closes (depth + depth') (as ++ bs) := by
  induction as generalizing depth with
  | nil =>
    obtain rfl := closes_nil_iff.1 h
    simpa using h'
  | cons a as ih =>
    obtain ⟨hdepth, has⟩ := closes_cons_iff.1 h
    have hrest := ih has
    rw [Int.add_right_comm] at hrest
    exact closes_cons_iff.2 ⟨Int.add_nonneg hdepth h'.nonneg, hrest⟩

/-- The back of a text closes what its front leaves open. -/
theorem Closes.back (h : Closes depth (as ++ bs)) : Closes (depth + nesting as) bs := by
  constructor
  · rw [Int.add_assoc, ← nesting_append]
    exact h.total
  · intro front hfront
    rw [Int.add_assoc, ← nesting_append]
    exact h.early (as ++ front) ((List.prefix_append_right_inj as).2 hfront)

theorem Closes.front_nonneg (h : Closes depth (as ++ bs)) : 0 ≤ depth + nesting as :=
  h.early as (List.prefix_append as bs)

theorem AreBalanced.append (h : AreBalanced as) (h' : AreBalanced bs) : AreBalanced (as ++ bs) :=
  Closes.append h h'

theorem areBalanced_nil : AreBalanced [] := closes_nil_iff.2 rfl

theorem areBalanced_singleton {l : Lexeme} (h : l.isParen = false) : AreBalanced [l] := by
  rw [AreBalanced, closes_cons_of_not_paren h, closes_nil_iff]

theorem areBalanced_group {o c : Lexeme} (ho : o.kind = .leftParen) (hc : c.kind = .rightParen)
    (h : AreBalanced as) : AreBalanced (o :: (as ++ [c])) := by
  have hlast : Closes 1 [c] := by
    rw [closes_cons_iff, nesting_of_rightParen hc, closes_nil_iff]
    decide
  have hinside : Closes (0 + 1) (as ++ [c]) := Closes.append h hlast
  rw [AreBalanced, closes_cons_iff, nesting_of_leftParen ho]
  exact ⟨Int.le_refl 0, hinside⟩

/-- From its beginning on, a text never closes more groups than it has opened. -/
def StaysOpen (ls : List Lexeme) : Prop := ∀ begun, begun <+: ls → 0 ≤ nesting begun

theorem AreBalanced.staysOpen (h : AreBalanced as) : StaysOpen as := by
  intro begun hbegun
  simpa using h.early begun hbegun

theorem StaysOpen.append (h : StaysOpen as) (h' : StaysOpen bs) : StaysOpen (as ++ bs) := by
  rintro begun ⟨rest, hcut⟩
  rcases List.append_eq_append_iff.1 hcut with ⟨gap, rfl, -⟩ | ⟨gap, rfl, rfl⟩
  · exact h begun (List.prefix_append begun gap)
  · rw [nesting_append]
    exact Int.add_nonneg (h as (List.prefix_refl as)) (h' gap (List.prefix_append gap rest))

theorem StaysOpen.opening {l : Lexeme} (h : StaysOpen as) (hl : l.kind = .leftParen) :
    StaysOpen (l :: as) := by
  intro begun hbegun
  rcases List.prefix_cons_iff.1 hbegun with rfl | ⟨begun', rfl, hbegun'⟩
  · exact Int.le_refl 0
  · rw [nesting_cons, nesting_of_leftParen hl]
    exact Int.add_nonneg (by decide) (h begun' hbegun')

end Lexeme

namespace Token

open Lexeme

/-- Two parentheses that belong together: what stands between them is balanced. -/
structure Partners (o : Token) (between : List Token) (c : Token) : Prop where
  opens : o.kind = .leftParen
  closes : c.kind = .rightParen
  inside : AreBalanced (between.map toLexeme)

/-- A closing parenthesis without a partner in front of it. -/
def LacksOpening (before : List Token) (c : Token) (_after : List Token) : Prop :=
  c.kind = .rightParen ∧ ∀ front o between, before = front ++ o :: between → ¬ Partners o between c

/-- An opening parenthesis without a partner behind it. -/
def LacksClosing (_before : List Token) (o : Token) (after : List Token) : Prop :=
  o.kind = .leftParen ∧ ∀ between c behind, after = between ++ c :: behind → ¬ Partners o between c

theorem Partners.areBalanced {o c : Token} {between : List Token} (h : Partners o between c) :
    AreBalanced ((o :: (between ++ [c])).map toLexeme) := by
  rw [List.map_cons, List.map_append, List.map_singleton]
  exact areBalanced_group h.opens h.closes h.inside

/-- Behind a balanced text a closing parenthesis has no partner. -/
theorem lacksOpening_of_areBalanced {before after : List Token} {c : Token}
    (h : AreBalanced (before.map toLexeme)) (hc : c.kind = .rightParen) :
    LacksOpening before c after := by
  refine ⟨hc, ?_⟩
  rintro front o between rfl hpartners
  have htotal := h.total
  have hfront := Closes.front_nonneg (List.map_append ▸ h)
  rw [List.map_append, List.map_cons, nesting_append, nesting_cons,
    nesting_of_leftParen hpartners.opens] at htotal
  have hinside := hpartners.inside.total
  omega

/-- A text that closes more groups than another depth closes the first of these behind a front part
that goes down to the depth. -/
theorem exists_closing {depth : Int} (inner : Int) {ts : List Token}
    (h : Closes depth (ts.map toLexeme)) (hinner : 0 ≤ inner) (hlt : inner < depth) :
    ∃ between c behind, ts = between ++ c :: behind ∧ c.kind = .rightParen ∧
      Closes inner (between.map toLexeme) := by
  induction ts generalizing depth inner with
  | nil =>
    have hdepth := closes_nil_iff.1 h
    omega
  | cons t ts ih =>
    rw [List.map_cons] at h
    by_cases hright : t.kind = .rightParen
    · by_cases hzero : inner = 0
      · subst hzero
        exact ⟨[], t, ts, rfl, hright, closes_nil_iff.2 rfl⟩
      · rw [closes_cons_iff, nesting_of_rightParen hright] at h
        obtain ⟨between, c, behind, rfl, hc, hbetween⟩ :=
          ih (inner + -1) h.2 (by omega) (by omega)
        refine ⟨t :: between, c, behind, rfl, hc, ?_⟩
        rw [List.map_cons, closes_cons_iff, nesting_of_rightParen hright]
        exact ⟨hinner, hbetween⟩
    · by_cases hleft : t.kind = .leftParen
      · rw [closes_cons_iff, nesting_of_leftParen hleft] at h
        obtain ⟨between, c, behind, rfl, hc, hbetween⟩ :=
          ih (inner + 1) h.2 (by omega) (by omega)
        refine ⟨t :: between, c, behind, rfl, hc, ?_⟩
        rw [List.map_cons, closes_cons_iff, nesting_of_leftParen hleft]
        exact ⟨hinner, hbetween⟩
      · have hparen : t.isParen = false := by simpa [isParen] using ⟨hleft, hright⟩
        rw [closes_cons_of_not_paren hparen] at h
        obtain ⟨between, c, behind, rfl, hc, hbetween⟩ := ih inner h hinner hlt
        refine ⟨t :: between, c, behind, rfl, hc, ?_⟩
        rwa [List.map_cons, closes_cons_of_not_paren hparen]

/-- In a balanced text every opening parenthesis has its partner. -/
theorem exists_partner {front gap : List Token} {o : Token}
    (h : AreBalanced ((front ++ o :: gap).map toLexeme)) (ho : o.kind = .leftParen) :
    ∃ between c behind, gap = between ++ c :: behind ∧ Partners o between c := by
  rw [List.map_append, List.map_cons] at h
  have hfront := Closes.front_nonneg h
  have hgap := (closes_cons_iff.1 (Closes.back h)).2
  rw [nesting_of_leftParen ho] at hgap
  obtain ⟨between, c, behind, rfl, hc, hbetween⟩ :=
    exists_closing 0 hgap (Int.le_refl 0) (by omega)
  exact ⟨between, c, behind, rfl, ho, hc, hbetween⟩

theorem not_lacksClosing {front gap : List Token} {o : Token}
    (h : AreBalanced ((front ++ o :: gap).map toLexeme)) (more : List Token) :
    ¬ LacksClosing front o (gap ++ more) := by
  rintro ⟨ho, hlacks⟩
  obtain ⟨between, c, behind, rfl, hpartners⟩ := exists_partner h ho
  exact hlacks between c (behind ++ more) (by simp) hpartners

end Token

namespace Layout

open Lexeme Token

/-- The openings that wait for their partners, the innermost first, stand in the text read so far;
around them it is balanced. -/
inductive Pending : List Token → List Opening → Prop where
  | none {done : List Token} : AreBalanced (done.map toLexeme) → Pending done []
  | opened {front between : List Token} {o : Token} {isModule : Bool} {opened : List Opening} :
      Pending front opened → o.kind = .leftParen → AreBalanced (between.map toLexeme) →
      Pending (front ++ o :: between) (⟨o.position, isModule⟩ :: opened)

variable {done more all : List Token} {opened : List Opening} {t : Token}

theorem pending_nil : Pending [] [] := .none areBalanced_nil

theorem Pending.append (h : Pending done opened) (hmore : AreBalanced (more.map toLexeme)) :
    Pending (done ++ more) opened := by
  cases h with
  | none hdone =>
    refine .none ?_
    rw [List.map_append]
    exact hdone.append hmore
  | opened hfront ho hbetween =>
    rw [List.append_assoc, List.cons_append]
    refine .opened hfront ho ?_
    rw [List.map_append]
    exact hbetween.append hmore

theorem Pending.push (h : Pending done opened) (ht : t.kind = .leftParen) (isModule : Bool) :
    Pending (done ++ [t]) (⟨t.position, isModule⟩ :: opened) :=
  .opened h ht areBalanced_nil

/-- A closing parenthesis is the partner of the innermost opening. -/
theorem Pending.pop {inner : Opening} (h : Pending done (inner :: opened))
    (ht : t.kind = .rightParen) :
    Pending (done ++ [t]) opened ∧ ¬ LacksOpening done t [] := by
  cases h with
  | @opened front between o _ _ hfront ho hbetween =>
    have hpartners : Partners o between t := ⟨ho, ht, hbetween⟩
    constructor
    · rw [List.append_assoc]
      exact hfront.append hpartners.areBalanced
    · intro hlacks
      exact hlacks.2 front o between rfl hpartners

/-- Behind the outermost opening nothing closes it, and in front of it the text is balanced. -/
theorem Pending.outermost {outermost : Opening} (h : Pending done opened)
    (hlast : opened.getLast? = some outermost) :
    ∃ front o back, done = front ++ o :: back ∧ o.position = outermost.position ∧
      o.kind = .leftParen ∧ AreBalanced (front.map toLexeme) ∧
      StaysOpen (back.map toLexeme) := by
  induction h with
  | none => cases hlast
  | @opened front between o isModule opened hfront ho hbetween ih =>
    cases opened with
    | nil =>
      cases hlast
      cases hfront with
      | none hfront => exact ⟨front, o, between, rfl, rfl, ho, hfront, hbetween.staysOpen⟩
    | cons outer opened =>
      obtain ⟨front, o', back, rfl, hposition, ho', hfront, hback⟩ := ih (by simpa using hlast)
      refine ⟨front, o', back ++ o :: between, by simp, hposition, ho', hfront, ?_⟩
      rw [List.map_append, List.map_cons]
      exact hback.append (hbetween.staysOpen.opening ho)

/-- The place of the first closing parenthesis without a partner or, where each of these has one, of
the first opening one without. -/
inductive FirstUnmatched (all : List Token) : Position → Prop where
  | closing {before after : List Token} {c : Token} :
      FirstWith LacksOpening all before c after → FirstUnmatched all c.position
  | opening {before after : List Token} {o : Token} :
      NoneWith LacksOpening all → FirstWith LacksClosing all before o after →
      FirstUnmatched all o.position

/-- What the matching finds in a text: every parenthesis has a partner, or one of them has none. -/
inductive Matched (all : List Token) : Except PassError Ends → Prop where
  | ok {ends : Ends} : NoneWith LacksOpening all → NoneWith LacksClosing all → Matched all (.ok ends)
  | unmatched {p : Position} : FirstUnmatched all p → Matched all (.error (.unbalanced p))

/-- At the end of the text the outermost opening that still waits is the first one without a
partner. -/
theorem Pending.matched (h : Pending done opened) (hnone : NoneWith LacksOpening done) (ends : Ends) :
    Matched done (closeAll opened ends []) := by
  rw [closeAll]
  cases hlast : opened.getLast? with
  | none =>
    obtain rfl := List.getLast?_eq_none_iff.1 hlast
    cases h with
    | none hdone =>
      refine .ok hnone ?_
      rintro before o after rfl
      simpa using not_lacksClosing hdone []
  | some outermost =>
    obtain ⟨front, o, back, rfl, hposition, ho, hfront, hback⟩ := h.outermost hlast
    dsimp only
    rw [← hposition]
    refine .unmatched (.opening hnone ⟨rfl, ⟨ho, ?_⟩, ?_⟩)
    · rintro between c behind rfl hpartners
      have hclosed := hback ((between ++ [c]).map toLexeme) (by simp)
      rw [List.map_append, List.map_singleton, nesting_append,
        nesting_of_rightParen hpartners.closes] at hclosed
      have hinside := hpartners.inside.total
      omega
    · rintro front' y gap rfl
      exact not_lacksClosing hfront _

/-- The matching of the rest, once the text in front of it has been read. -/
theorem matched_closeAll (h : Pending done opened) (hnone : NoneWith LacksOpening done) (ends : Ends)
    (rest : List Token) : Matched (done ++ rest) (closeAll opened ends rest) := by
  -- every token moves to the text read so far, and only closing parentheses can lack an opening there
  induction rest generalizing done opened ends with
  | nil =>
    rw [List.append_nil]
    exact h.matched hnone ends
  | cons t rest ih =>
    have hgrow : done ++ t :: rest = (done ++ [t]) ++ rest := by simp
    by_cases hright : t.kind = .rightParen
    · cases opened with
      | nil =>
        cases h with
        | none hdone =>
          have hfirst : FirstWith LacksOpening (done ++ t :: rest) done t rest := by
            refine ⟨rfl, lacksOpening_of_areBalanced hdone hright, ?_⟩
            intro front y gap hcut hlacks
            exact hnone front y gap hcut hlacks
          rw [closeAll.eq_def]
          simp only [hright]
          exact .unmatched (.closing hfirst)
      | cons inner opened =>
        obtain ⟨hpending, hpartner⟩ := h.pop hright
        rw [hgrow]
        cases opened with
        | nil =>
          rw [closeAll_cons_closing_outer hright]
          exact ih hpending (hnone.concat hpartner) _
        | cons outer opened =>
          rw [closeAll_cons_closing_inner hright]
          exact ih hpending (hnone.concat hpartner) _
    · have hpartner : ¬ LacksOpening done t [] := fun hlacks => hright hlacks.1
      rw [hgrow]
      by_cases hleft : t.kind = .leftParen
      · rw [closeAll_cons_opening hleft]
        exact ih (h.push hleft _) (hnone.concat hpartner) _
      · have hparen : t.isParen = false := by simpa [isParen] using ⟨hleft, hright⟩
        have hpending : Pending (done ++ [t]) opened := h.append (areBalanced_singleton hparen)
        rw [closeAll_cons_of_not_paren hparen]
        exact ih hpending (hnone.concat hpartner) _

end Layout

end BulkMemory
