import BulkMemory.Form
import BulkMemory.Proofs.Token.Tiling

/-!
# Forests and their lexemes

What `Form.lexemesAll` writes, `Form.ofLexemes?` reads back, as long as no parenthesis hides among the
atoms (`Form.ofLexemes?_lexemesAll`). `Lexeme.nesting` is the number of groups that a run of lexemes
leaves open, and a forest leaves none open (`Form.nesting_lexemesAll`).
-/

namespace BulkMemory
set_option autoImplicit false

namespace Lexeme

/-- Whether a lexeme is a parenthesis. -/
def isParen (l : Lexeme) : Bool := l.kind == .leftParen || l.kind == .rightParen

theorem isParen_of_trivia {l : Lexeme} (h : l.isTrivia = true) : l.isParen = false := by
  rw [isTrivia] at h
  cases hkind : l.kind <;> rw [hkind] at h <;> simp [isParen, hkind, Kind.isTrivia] at h ⊢

theorem classify_not_paren (cs : List Char) :
    Lexer.classify cs ≠ .leftParen ∧ Lexer.classify cs ≠ .rightParen := by
  unfold Lexer.classify
  repeat' split
  all_goals exact ⟨by simp, by simp⟩

theorem IsNext.parens {kind : Kind} {text rest : List Char} (h : IsNext kind text rest) :
    (kind = .leftParen → text = ['(']) ∧ (kind = .rightParen → text = [')']) := by
  cases h with
  | leftParen | rightParen => simp
  | @atom c cs =>
    exact ⟨fun hkind => absurd hkind (classify_not_paren (c :: cs)).1,
      fun hkind => absurd hkind (classify_not_paren (c :: cs)).2⟩
  | lineComment | blockComment | string | blank => simp

/-- In a text there is one way to write either parenthesis. -/
theorem Stands.parens {l : Lexeme} {rest : List Char} (h : Stands l rest) :
    (l.kind = .leftParen → l = Form.opening) ∧ (l.kind = .rightParen → l = Form.closing) := by
  obtain ⟨kind, text⟩ := l
  cases h with
  | blank hblank =>
    obtain rfl : kind = .blank := hblank
    simp
  | whole h =>
    refine ⟨fun hkind => ?_, fun hkind => ?_⟩
    · obtain rfl : kind = .leftParen := hkind
      obtain rfl : text = "(" := String.toList_inj.1 (by simpa using h.parens.1 rfl)
      rfl
    · obtain rfl : kind = .rightParen := hkind
      obtain rfl : text = ")" := String.toList_inj.1 (by simpa using h.parens.2 rfl)
      rfl

theorem Tiles.exists_stands {ls : List Lexeme} {rest : List Char} (h : Tiles ls rest) :
    ∀ l ∈ ls, ∃ rest', Stands l rest' := by
  induction ls with
  | nil => simp
  | cons l ls ih => exact List.forall_mem_cons.2 ⟨⟨_, h.1⟩, ih h.2⟩

/-! ### How deep a run of lexemes goes -/

/-- How many more groups some lexemes open than they close. -/
def nesting (ls : List Lexeme) : Int :=
  ls.countP (·.kind = .leftParen) - ls.countP (·.kind = .rightParen)

@[simp] theorem nesting_nil : nesting [] = 0 := rfl

@[simp] theorem nesting_append (as bs : List Lexeme) :
    nesting (as ++ bs) = nesting as + nesting bs := by
  simp only [nesting, List.countP_append]
  omega

theorem nesting_cons (l : Lexeme) (ls : List Lexeme) :
    nesting (l :: ls) = nesting [l] + nesting ls := nesting_append [l] ls

theorem nesting_eq_zero {ls : List Lexeme} (h : ∀ l ∈ ls, l.isParen = false) : nesting ls = 0 := by
  have hkinds (l : Lexeme) (hl : l ∈ ls) : l.kind ≠ .leftParen ∧ l.kind ≠ .rightParen := by
    simpa [isParen] using h l hl
  have hleft : ls.countP (·.kind = .leftParen) = 0 :=
    List.countP_eq_zero.2 fun l hl => by simpa using (hkinds l hl).1
  have hright : ls.countP (·.kind = .rightParen) = 0 :=
    List.countP_eq_zero.2 fun l hl => by simpa using (hkinds l hl).2
  rw [nesting, hleft, hright]
  rfl

/-- Trivia opens and closes nothing. -/
theorem nesting_significant (ls : List Lexeme) : nesting (significant ls) = nesting ls := by
  induction ls with
  | nil => rfl
  | cons l ls ih =>
    cases hl : l.isTrivia with
    | true =>
      have hparen : nesting [l] = 0 := nesting_eq_zero (by simpa using isParen_of_trivia hl)
      rw [nesting_cons, hparen, Int.zero_add, ← ih]
      simp [significant, hl]
    | false =>
      have hcons : significant (l :: ls) = l :: significant ls := by simp [significant, hl]
      rw [hcons, nesting_cons, ih, ← nesting_cons]

end Lexeme

namespace Form

open Lexeme

mutual

/-- Whether no atom of a form is a parenthesis. -/
def isProper : Form → Bool
  | atom l => !l.isParen
  | group items => areProper items

/-- Whether no atom of some forms is a parenthesis. -/
def areProper : List Form → Bool
  | [] => true
  | f :: fs => f.isProper && areProper fs

end

@[simp] theorem areProper_append (as bs : List Form) :
    areProper (as ++ bs) = (areProper as && areProper bs) := by
  induction as with
  | nil => rfl
  | cons a as ih => rw [List.cons_append, areProper, ih, areProper, Bool.and_assoc]

theorem areProper_of_forall {fs : List Form} (h : ∀ f ∈ fs, f.isProper = true) :
    areProper fs = true := by
  induction fs with
  | nil => rfl
  | cons f fs ih =>
    rw [areProper, h f List.mem_cons_self, ih fun g hg => h g (List.mem_cons_of_mem f hg)]
    rfl

theorem readForest_cons_of_not_paren {l : Lexeme} (h : l.isParen = false)
    (around : List (List Form)) (here : List Form) (ls : List Lexeme) :
    readForest around here (l :: ls) = readForest around (.atom l :: here) ls := by
  obtain ⟨hleft, hright⟩ : l.kind ≠ .leftParen ∧ l.kind ≠ .rightParen := by simpa [isParen] using h
  rw [readForest.eq_def]
  dsimp only
  split
  · exact absurd ‹_› hleft
  · exact absurd ‹_› hright
  · rfl

mutual

/-- The lexemes of a form are read as the form, wherever they stand. -/
theorem readForest_lexemes : (f : Form) → f.isProper = true → ∀ around here ls,
    readForest around here (f.lexemes ++ ls) = readForest around (f :: here) ls
  | atom l, hf, around, here, ls => by
    rw [isProper, Bool.not_eq_true'] at hf
    exact readForest_cons_of_not_paren hf around here ls
  | group items, hf, around, here, ls => by
    rw [isProper] at hf
    have hitems := readForest_lexemesAll items hf (here :: around) [] (closing :: ls)
    rw [lexemes, List.cons_append, List.append_assoc]
    change readForest (here :: around) [] (lexemesAll items ++ closing :: ls) = _
    rw [hitems, List.append_nil]
    change readForest around (.group items.reverse.reverse :: here) ls = _
    rw [List.reverse_reverse]

theorem readForest_lexemesAll : (fs : List Form) → areProper fs = true → ∀ around here ls,
    readForest around here (lexemesAll fs ++ ls) = readForest around (fs.reverse ++ here) ls
  | [], _, around, here, ls => rfl
  | f :: fs, hfs, around, here, ls => by
    rw [areProper, Bool.and_eq_true] at hfs
    rw [lexemesAll, List.append_assoc, readForest_lexemes f hfs.1,
      readForest_lexemesAll fs hfs.2, List.reverse_cons, List.append_assoc]
    rfl

end

/-- A forest is read back from its lexemes. -/
theorem ofLexemes?_lexemesAll {fs : List Form} (h : areProper fs = true) :
    ofLexemes? (lexemesAll fs) = some fs := by
  have hread := readForest_lexemesAll fs h [] [] []
  rw [List.append_nil, List.append_nil] at hread
  rw [ofLexemes?, hread]
  simp [readForest]

mutual

theorem nesting_lexemes : (f : Form) → f.isProper = true → nesting f.lexemes = 0
  | atom l, hf => by
    rw [isProper, Bool.not_eq_true'] at hf
    exact nesting_eq_zero (by simpa [lexemes] using hf)
  | group items, hf => by
    rw [isProper] at hf
    rw [lexemes, nesting_cons, nesting_append, nesting_lexemesAll items hf]
    rfl

/-- A forest closes every group that it opens. -/
theorem nesting_lexemesAll : (fs : List Form) → areProper fs = true → nesting (lexemesAll fs) = 0
  | [], _ => rfl
  | f :: fs, hfs => by
    rw [areProper, Bool.and_eq_true] at hfs
    rw [lexemesAll, nesting_append, nesting_lexemes f hfs.1, nesting_lexemesAll fs hfs.2]
    rfl

end

end Form

end BulkMemory
