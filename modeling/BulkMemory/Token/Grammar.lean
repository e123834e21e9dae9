import BulkMemory.Token.Lexer

/-!
# The lexemes of module text

What a lexeme is, said without cutting anything: `IsNext kind text rest` says that `text` is the
whole lexeme of that kind at the front of `text ++ rest`, and `Decomposes` that a text falls into
such lexemes, up to its end or up to a string or comment that never ends. `decomposes_iff` says that
these are the lexemes that the lexer finds.
-/

namespace BulkMemory.Lexeme
set_option autoImplicit false

/-- What ends a block comment of which `depth` openings wait for their end. -/
inductive CommentTail : Nat → List Char → Prop where
  | done : CommentTail 0 []
  | opening {depth : Nat} {cs : List Char} :
      CommentTail (depth + 2) cs → CommentTail (depth + 1) ('(' :: ';' :: cs)
  | closing {depth : Nat} {cs : List Char} :
      CommentTail depth cs → CommentTail (depth + 1) (';' :: ')' :: cs)
  | other {depth : Nat} {c : Char} {cs : List Char} :
      ¬ (c = '(' ∧ cs.head? = some ';') → ¬ (c = ';' ∧ cs.head? = some ')') →
      CommentTail (depth + 1) cs → CommentTail (depth + 1) (c :: cs)

/-- What ends a string: its first quote that is not taken by a backslash. -/
inductive StringTail : List Char → Prop where
  | quote : StringTail ['"']
  | escaped {c : Char} {cs : List Char} : StringTail cs → StringTail ('\\' :: c :: cs)
  | other {c : Char} {cs : List Char} :
      c ≠ '"' → c ≠ '\\' → StringTail cs → StringTail (c :: cs)

/-- All characters of a text pass a test, and the first one behind it does not. -/
def LongestRun (test : Char → Bool) (cs rest : List Char) : Prop :=
  (∀ c ∈ cs, test c = true) ∧ ∀ c ∈ rest.head?, test c = false

/-- The whole lexeme at the front of a text, and what follows it. -/
inductive IsNext : Kind → List Char → List Char → Prop where
  | leftParen {rest : List Char} : rest.head? ≠ some ';' → IsNext .leftParen ['('] rest
  | rightParen {rest : List Char} : IsNext .rightParen [')'] rest
  | lineComment {cs rest : List Char} :
      LongestRun (· != '\n') cs rest → IsNext .lineComment (';' :: ';' :: cs) rest
  | blockComment {cs rest : List Char} :
      CommentTail 1 cs → IsNext .blockComment ('(' :: ';' :: cs) rest
  | string {cs rest : List Char} : StringTail cs → IsNext .string ('"' :: cs) rest
  | blank {c : Char} {cs rest : List Char} :
      isBlank c = true → LongestRun isBlank cs rest → IsNext .blank (c :: cs) rest
  /-- Any other character begins a run that goes up to a delimiter. -/
  | atom {c : Char} {cs rest : List Char} :
      isBlank c = false → c ∉ ['(', ')', '"'] → ¬ (c = ';' ∧ (cs ++ rest).head? = some ';') →
      LongestRun (!Lexer.isDelimiter ·) cs rest →
      IsNext (Lexer.classify (c :: cs)) (c :: cs) rest

/-- The lexemes of a text, one behind the other, and the fault at which they stop if there is
one. -/
inductive Decomposes : List Char → List Lexeme → Option LexFault → Prop where
  | done : Decomposes [] [] none
  | cons {kind : Kind} {text rest : List Char} {ls : List Lexeme} {fault? : Option LexFault} :
      IsNext kind text rest → Decomposes rest ls fault? →
      Decomposes (text ++ rest) (⟨kind, String.ofList text⟩ :: ls) fault?
  | openString {cs : List Char} :
      (∀ front rest, cs = front ++ rest → ¬ StringTail front) →
      Decomposes ('"' :: cs) [] (some .unterminatedString)
  | openComment {cs : List Char} :
      (∀ front rest, cs = front ++ rest → ¬ CommentTail 1 front) →
      Decomposes ('(' :: ';' :: cs) [] (some .unterminatedComment)

open Lexer

theorem commentTail_of_closeComment {depth : Nat} {cs front rest : List Char}
    (h : closeComment depth cs = some (front, rest)) : CommentTail depth front := by
  fun_induction closeComment depth cs generalizing front rest with
  | case1 => simp_all; exact .done
  | case2 => simp at h
  | case3 _ _ ih =>
    obtain ⟨⟨front', rest'⟩, hclose, heq⟩ := Option.map_eq_some_iff.1 h
    cases heq
    exact .opening (ih hclose)
  | case4 _ _ ih =>
    obtain ⟨⟨front', rest'⟩, hclose, heq⟩ := Option.map_eq_some_iff.1 h
    cases heq
    exact .closing (ih hclose)
  | case5 depth c cs h1 h2 ih =>
    obtain ⟨⟨front', rest'⟩, hclose, heq⟩ := Option.map_eq_some_iff.1 h
    cases heq
    have happ := closeComment_eq_append hclose
    refine .other ?_ ?_ (ih hclose)
    · rintro ⟨rfl, hhead⟩
      cases front' with
      | nil => simp at hhead
      | cons d ds =>
        simp only [List.head?_cons, Option.some.injEq] at hhead
        subst hhead
        exact h1 _ rfl (by rw [happ]; rfl)
    · rintro ⟨rfl, hhead⟩
      cases front' with
      | nil => simp at hhead
      | cons d ds =>
        simp only [List.head?_cons, Option.some.injEq] at hhead
        subst hhead
        exact h2 _ rfl (by rw [happ]; rfl)

theorem closeComment_append {depth : Nat} {front : List Char} (h : CommentTail depth front)
    (rest : List Char) : closeComment depth (front ++ rest) = some (front, rest) := by
  induction h with
  | done => simp [closeComment]
  | opening _ ih => simp [closeComment, ih]
  | closing _ ih => simp [closeComment, ih]
  | @other depth c cs h1 h2 hcs ih =>
    cases cs with
    | nil => cases hcs
    | cons d ds =>
      rw [List.cons_append, closeComment, ih]
      · rfl
      · rintro cs rfl h; simp at h1; exact h1 (List.cons.inj h).1
      · rintro cs rfl h; simp at h2; exact h2 (List.cons.inj h).1

theorem stringTail_of_closeString {cs front rest : List Char}
    (h : closeString cs = some (front, rest)) : StringTail front := by
  fun_induction closeString cs generalizing front rest with
  | case1 | case3 => simp at h
  | case2 =>
    cases h
    exact .quote
  | case4 _ _ ih =>
    obtain ⟨⟨front', rest'⟩, hclose, heq⟩ := Option.map_eq_some_iff.1 h
    cases heq
    exact .escaped (ih hclose)
  | case5 c cs hquote hlast hescape ih =>
    obtain ⟨⟨front', rest'⟩, hclose, heq⟩ := Option.map_eq_some_iff.1 h
    cases heq
    refine .other hquote ?_ (ih hclose)
    rintro rfl
    cases cs with
    | nil => exact hlast rfl rfl
    | cons d ds => exact hescape d ds rfl rfl

theorem closeString_append {front : List Char} (h : StringTail front) (rest : List Char) :
    closeString (front ++ rest) = some (front, rest) := by
  induction h with
  | quote => simp [closeString]
  | escaped _ ih => simp [closeString, ih]
  | @other c cs hquote hescape hcs ih =>
    rw [List.cons_append, closeString, ih]
    · rfl
    · exact hquote
    · rintro rfl; exact absurd rfl hescape
    · rintro d ds rfl; exact absurd rfl hescape

theorem longestRun_takeWhile (test : Char → Bool) (cs : List Char) :
    LongestRun test (cs.takeWhile test) (cs.dropWhile test) := by
  refine ⟨List.all_eq_true.1 List.all_takeWhile, fun c hc => ?_⟩
  have hstop := List.head?_dropWhile_not test cs
  rw [Option.mem_def.1 hc] at hstop
  exact hstop

theorem LongestRun.eq_takeWhile {test : Char → Bool} {cs rest : List Char}
    (h : LongestRun test cs rest) : (cs ++ rest).takeWhile test = cs := by
  induction cs with
  | nil =>
    cases rest with
    | nil => rfl
    | cons c rest => simp [h.2 c rfl]
  | cons c cs ih =>
    have hc := h.1 c List.mem_cons_self
    simp [hc, ih ⟨fun d hd => h.1 d (List.mem_cons_of_mem c hd), h.2⟩]

theorem LongestRun.eq_dropWhile {test : Char → Bool} {cs rest : List Char}
    (h : LongestRun test cs rest) : (cs ++ rest).dropWhile test = rest := by
  have happend := List.takeWhile_append_dropWhile (p := test) (l := cs ++ rest)
  rw [h.eq_takeWhile] at happend
  exact List.append_cancel_left happend

theorem isNext_of_next {c : Char} {cs : List Char} {s : Step} (h : next c cs = .ok s) :
    IsNext s.kind s.text s.rest := by
  unfold next at h
  split at h
  · next hc =>
    subst hc
    split at h
    · split at h
      · next hclose =>
        cases h
        exact .blockComment (commentTail_of_closeComment hclose)
      · cases h
    · next hcs =>
      cases h
      refine .leftParen ?_
      cases cs with
      | nil => simp
      | cons d ds => simpa using fun hd => hcs ds (by rw [hd])
  · next hopen =>
    split at h
    · next hc =>
      subst hc
      cases h
      exact .rightParen
    · next hshut =>
      split at h
      · next hc =>
        subst hc
        split at h
        · next hclose =>
          cases h
          exact .string (stringTail_of_closeString hclose)
        · cases h
      · next hquote =>
        split at h
        · next hc =>
          simp only [Bool.and_eq_true, decide_eq_true_eq, beq_iff_eq] at hc
          obtain ⟨rfl, hhead⟩ := hc
          cases h
          cases cs with
          | nil => simp at hhead
          | cons d ds =>
            obtain rfl : d = ';' := by simpa using hhead
            exact .lineComment (longestRun_takeWhile _ ds)
        · next hline =>
          split at h
          · next hblank =>
            cases h
            exact .blank hblank (longestRun_takeWhile _ cs)
          · next hblank =>
            cases h
            refine .atom (by simpa using hblank) (by simp [hopen, hshut, hquote]) ?_
              (longestRun_takeWhile _ cs)
            simpa [List.takeWhile_append_dropWhile] using hline

theorem next_of_isNext {kind : Kind} {c : Char} {cs rest : List Char}
    (h : IsNext kind (c :: cs) rest) : next c (cs ++ rest) = .ok ⟨kind, c :: cs, rest⟩ := by
  cases h with
  | leftParen hrest =>
    cases rest with
    | nil => simp [next]
    | cons d ds =>
      have hd : d ≠ ';' := by simpa using hrest
      simp [next, hd]
  | rightParen => simp [next]
  | lineComment hcs => simp [next, hcs.eq_takeWhile, hcs.eq_dropWhile]
  | blockComment hcs => simp [next, closeComment_append hcs]
  | string hcs => simp [next, closeString_append hcs]
  | blank hc hcs =>
    have hne : c ≠ '(' ∧ c ≠ ')' ∧ c ≠ '"' ∧ c ≠ ';' := by
      refine ⟨?_, ?_, ?_, ?_⟩ <;> rintro rfl <;> revert hc <;> decide
    simp [next, hne, hc, hcs.eq_takeWhile, hcs.eq_dropWhile]
  | atom hblank hc hline hcs =>
    simp only [List.mem_cons, List.not_mem_nil, or_false, not_or] at hc
    unfold next
    rw [if_neg hc.1, if_neg hc.2.1, if_neg hc.2.2, if_neg (by simpa using hline),
      if_neg (by simp [hblank])]
    simp [hcs.eq_takeWhile, hcs.eq_dropWhile]

/-- Cutting off a lexeme fails exactly at a string or comment that does not end. -/
theorem next_eq_error_iff {c : Char} {cs : List Char} {fault : LexFault} :
    next c cs = .error fault ↔ Decomposes (c :: cs) [] (some fault) := by
  constructor
  · intro h
    unfold next at h
    split at h
    · next hc =>
      subst hc
      split at h
      · split at h
        · cases h
        · next hclose =>
          cases h
          refine .openComment fun front rest happend htail => ?_
          rw [happend, closeComment_append htail] at hclose
          cases hclose
      · cases h
    · split at h
      · cases h
      · split at h
        · next hc =>
          subst hc
          split at h
          · cases h
          · next hclose =>
            cases h
            refine .openString fun front rest happend htail => ?_
            rw [happend, closeString_append htail] at hclose
            cases hclose
        · split at h
          · cases h
          · split at h <;> cases h
  · intro h
    generalize hs : c :: cs = s, hls : ([] : List Lexeme) = ls at h
    cases h with
    | cons => cases hls
    | openString hopen =>
      cases hs
      cases hclose : closeString cs with
      | none => simp [next, hclose]
      | some split =>
        exact absurd (stringTail_of_closeString hclose)
          (hopen _ _ (closeString_eq_append hclose))
    | @openComment body hopen =>
      cases hs
      cases hclose : closeComment 1 body with
      | none => simp [next, hclose]
      | some split =>
        exact absurd (commentTail_of_closeComment hclose)
          (hopen _ _ (closeComment_eq_append hclose))

/-- The lexer finds the lexemes of a text and its fault. -/
theorem decomposes_iff {cs : List Char} {ls : List Lexeme} {fault? : Option LexFault} :
    Decomposes cs ls fault? ↔ run cs = (ls, fault?) := by
  constructor
  · intro h
    induction h with
    | done => rw [run]
    | @cons kind text rest ls fault? hnext _ ih =>
      cases text with
      | nil => cases hnext
      | cons c cs =>
        rw [List.cons_append, run, next_of_isNext hnext]
        simp [ih]
    | openString hopen => rw [run, next_eq_error_iff.2 (.openString hopen)]
    | openComment hopen => rw [run, next_eq_error_iff.2 (.openComment hopen)]
  · intro h
    fun_induction run cs generalizing ls fault? with
    | case1 =>
      cases h
      exact .done
    | case2 c cs fault hnext =>
      cases h
      exact next_eq_error_iff.1 hnext
    | case3 c cs s hnext ls' fault' hrun ih =>
      cases h
      rw [next_eq_append hnext]
      exact .cons (isNext_of_next hnext) (ih hrun)

end BulkMemory.Lexeme
