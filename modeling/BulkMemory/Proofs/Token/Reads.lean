import BulkMemory.Proofs.Token.Tiling
import BulkMemory.Form
import BulkMemory.Replacement

/-!
# Texts and the lexemes they read as

`Reads fit text ls` says that a text consists of the lexemes `ls` and of trivia, wherever what
follows it is fit: a comment goes up to the end of its line, and a word up to a delimiter, whereas a
closing parenthesis ends everywhere. Texts that are put together from pieces read as the lexemes of
the pieces (`Reads.append`), and `Reads.tokenize` hands the result to the lexer.
-/

namespace BulkMemory.Lexeme
set_option autoImplicit false

open Lexer

/-- A text in front of which a word may end. -/
def Delimited (rest : List Char) : Prop := ∀ c ∈ rest.head?, isDelimiter c = true

/-- A text in front of which a line comment may end. -/
def EndsLine (rest : List Char) : Prop := ∀ c ∈ rest.head?, c = '\n'

theorem EndsLine.delimited {rest : List Char} (h : EndsLine rest) : Delimited rest := by
  intro c hc
  rw [h c hc]
  decide

/-- A text consists of some lexemes and of trivia, wherever what follows it is fit. -/
def Reads (fit : List Char → Prop) (text : List Char) (ls : List Lexeme) : Prop :=
  ∃ all, chars all = text ∧ significant all = ls ∧ ∀ rest, fit rest → Tiles all rest

namespace Reads

variable {fit fit' : List Char → Prop} {a b : List Char} {ls ms : List Lexeme}

theorem nil : Reads fit [] [] := ⟨[], rfl, rfl, fun _ _ => trivial⟩

theorem mono (h : Reads fit a ls) (hfit : ∀ rest, fit' rest → fit rest) : Reads fit' a ls := by
  obtain ⟨all, hchars, hls, htiles⟩ := h
  exact ⟨all, hchars, hls, fun rest hrest => htiles rest (hfit rest hrest)⟩

/-- What may stand in front of anything may stand in front of what is fit. -/
theorem everywhere (h : Reads (fun _ => True) a ls) : Reads fit a ls := h.mono fun _ _ => trivial

theorem append (h : Reads fit a ls) (h' : Reads fit' b ms)
    (hfit : ∀ rest, fit' rest → fit (b ++ rest)) : Reads fit' (a ++ b) (ls ++ ms) := by
  obtain ⟨as, rfl, rfl, has⟩ := h
  obtain ⟨bs, rfl, rfl, hbs⟩ := h'
  refine ⟨as ++ bs, chars_append as bs, significant_append as bs, fun rest hrest => ?_⟩
  exact Tiles.append_iff.2 ⟨has _ (hfit rest hrest), hbs rest hrest⟩

/-- A single lexeme. -/
theorem single {l : Lexeme} (hmeaning : l.isTrivia = false)
    (h : ∀ rest, fit rest → Stands l rest) : Reads fit l.text.toList [l] :=
  ⟨[l], by simp, by simp [significant, hmeaning], fun rest hrest => ⟨h rest hrest, trivial⟩⟩

theorem trivia {l : Lexeme} (htrivia : l.isTrivia = true)
    (h : ∀ rest, fit rest → Stands l rest) : Reads fit l.text.toList [] :=
  ⟨[l], by simp, by simp [significant, htrivia], fun rest hrest => ⟨h rest hrest, trivial⟩⟩

/-- What a text reads as is what the lexer finds in it. -/
theorem tokenize {text : String} (h : Reads fit text.toList ls) (hend : fit []) :
    ∃ ts, BulkMemory.tokenize text = .ok ts ∧ Token.meaning ts = ls := by
  obtain ⟨all, hchars, rfl, htiles⟩ := h
  obtain ⟨ts, htokens, hsame⟩ := tokenize_of_tiles (htiles [] hend)
  refine ⟨ts, by rw [← htokens, hchars, String.ofList_toList], ?_⟩
  rw [Token.meaning, hsame]
  exact Token.map_significant_placeAll 0 .start all

end Reads

/-! ### Blanks, comments and parentheses -/

/-- Blanks are no lexeme with a meaning. -/
theorem reads_blanks {cs : List Char} (h : ∀ c ∈ cs, isBlank c = true) :
    Reads (fun _ => True) cs [] := by
  by_cases hne : cs = []
  · rw [hne]
    exact .nil
  · have hblank : Reads (fun _ => True) (⟨.blank, String.ofList cs⟩ : Lexeme).text.toList [] :=
      .trivia rfl fun rest _ => .blank rfl (by simpa using hne) (by simpa using h)
    simpa using hblank

theorem reads_space : Reads (fun _ => True) [' '] [] := reads_blanks (List.all_eq_true.1 (by decide))

theorem reads_break : Reads (fun _ => True) ['\n'] [] := reads_blanks (List.all_eq_true.1 (by decide))

/-- A break in front of a text may be left out. -/
theorem Reads.of_break {fit : List Char → Prop} {cs : List Char} {ls : List Lexeme}
    (h : Reads fit ('\n' :: cs) ls) (hend : fit []) : Reads fit cs ls := by
  obtain ⟨all, hchars, hls, htiles⟩ := h
  cases all with
  | nil => cases hchars
  | cons l all =>
    -- the break begins a run of blanks, which may be shorter
    have hstands := (htiles [] hend).1
    obtain ⟨c, ds, htext⟩ := List.exists_cons_of_ne_nil hstands.text_ne_nil
    rw [chars_cons, htext, List.cons_append] at hchars
    obtain ⟨rfl, rfl⟩ := List.cons.inj hchars
    have hkind : l.kind = .blank := by
      cases hstands with
      | blank hkind => exact hkind
      | whole hnext =>
        rw [htext] at hnext
        exact (hnext.blank_head (by decide)).1
    have hmeaning : significant (l :: all) = significant all := by
      simp [significant, isTrivia, hkind, Kind.isTrivia]
    have hblanks : Reads (fun _ => True) ds [] := reads_blanks fun d hd =>
      hstands.all_blank hkind d (by rw [htext]; exact List.mem_cons_of_mem _ hd)
    have hall : Reads fit (chars all) ls :=
      ⟨all, rfl, hmeaning.symm.trans hls, fun rest hrest => (htiles rest hrest).2⟩
    exact hblanks.append hall fun _ _ => trivial

theorem reads_comment {text : String} (h : '\n' ∉ text.toList) :
    Reads EndsLine (";; " ++ text).toList [] := by
  refine .trivia (l := ⟨.lineComment, ";; " ++ text⟩) rfl fun rest hrest => .whole ?_
  have hline : IsNext .lineComment (';' :: ';' :: ' ' :: text.toList) rest := by
    refine .lineComment ⟨fun c hc => ?_, fun c hc => by simp [hrest c hc]⟩
    rcases List.mem_cons.1 hc with rfl | hc
    · decide
    · rw [bne_iff_ne]
      rintro rfl
      exact h hc
  simpa using hline

theorem reads_opening : Reads (fun rest => rest.head? ≠ some ';') ['('] [Form.opening] :=
  .single (l := Form.opening) rfl fun _ hrest => .whole (.leftParen hrest)

theorem reads_closing : Reads (fun _ => True) [')'] [Form.closing] :=
  .single (l := Form.closing) rfl fun _ _ => .whole .rightParen

/-! ### Words -/

/-- A lexeme that goes up to the next delimiter. -/
structure IsWord (l : Lexeme) : Prop where
  kind : l.kind = classify l.text.toList
  ne_nil : l.text.toList ≠ []
  plain : ∀ c ∈ l.text.toList, isDelimiter c = false

theorem classify_isTrivia (cs : List Char) : (classify cs).isTrivia = false := by
  unfold classify
  repeat' split
  all_goals rfl

variable {l : Lexeme} {ls : List Lexeme}

theorem IsWord.isNext (h : l.IsWord) {rest : List Char} (hrest : Delimited rest) :
    IsNext l.kind l.text.toList rest := by
  rw [h.kind]
  obtain ⟨c, cs, hcs⟩ := List.exists_cons_of_ne_nil h.ne_nil
  have hplain := h.plain
  rw [hcs] at hplain ⊢
  exact isNext_atom (hplain c List.mem_cons_self)
    (fun d hd => hplain d (List.mem_cons_of_mem c hd)) hrest

theorem IsWord.stands (h : l.IsWord) {rest : List Char} (hrest : Delimited rest) :
    Stands l rest := .whole (h.isNext hrest)

/-- A keyword begins with a small letter. -/
theorem isWord_keyword {word : String} (hword : classify word.toList = .keyword)
    (hplain : word.toList.all (!isDelimiter ·) = true) : (⟨.keyword, word⟩ : Lexeme).IsWord := by
  refine ⟨hword.symm, ?_, fun c hc => by simpa using List.all_eq_true.1 hplain c hc⟩
  intro hnil
  rw [hnil] at hword
  cases hword

theorem IsWord.reads (h : l.IsWord) : Reads Delimited l.text.toList [l] :=
  .single (by rw [isTrivia, h.kind, classify_isTrivia]) fun _ hrest => h.stands hrest

/-- Words in a row. -/
def row (ls : List Lexeme) : String := " ".intercalate (ls.map text)

theorem reads_row (h : ∀ l ∈ ls, l.IsWord) : Reads Delimited (row ls).toList ls := by
  induction ls with
  | nil => simpa [row] using Reads.nil
  | cons l ls ih =>
    have hl := (h l List.mem_cons_self).reads
    have hrest := ih fun k hk => h k (List.mem_cons_of_mem l hk)
    cases ls with
    | nil => simpa [row] using hl
    | cons k ks =>
      have hall := hl.append (reads_space.append hrest fun _ _ => trivial) fun rest _ c hc => by
        obtain rfl : ' ' = c := by simpa using hc
        decide
      simpa [row] using hall

/-! ### Identifiers -/

/-- The delimiters of ASCII lie below the digits, but for the semicolon. -/
theorem isDelimiter_of_isAlphanum {c : Char} (h : c.isAlphanum = true) : isDelimiter c = false := by
  have hrange : 48 ≤ c.toNat ∧ c.toNat ≤ 122 ∧ c.toNat ≠ 59 := by
    rcases Bool.or_eq_true_iff.1 h with hletter | hdigit
    · rcases Bool.or_eq_true_iff.1 hletter with hupper | hlower
      · have hbounds : 65 ≤ c.toNat ∧ c.toNat ≤ 90 := of_decide_eq_true hupper
        omega
      · obtain ⟨hlow, hhigh⟩ := Bool.and_eq_true_iff.1 hlower
        have hbounds : 97 ≤ c.toNat ∧ c.toNat ≤ 122 :=
          ⟨of_decide_eq_true hlow, of_decide_eq_true hhigh⟩
        omega
    · obtain ⟨hlow, hhigh⟩ := Bool.and_eq_true_iff.1 hdigit
      have hbounds : 48 ≤ c.toNat ∧ c.toNat ≤ 57 :=
        ⟨of_decide_eq_true hlow, of_decide_eq_true hhigh⟩
      omega
  have hblank : isBlank c = false := by
    simp [isBlank, blankRanges]
    omega
  simp only [isDelimiter, hblank, Bool.false_or, Bool.or_eq_false_iff, beq_eq_false_iff_ne]
  refine ⟨⟨⟨?_, ?_⟩, ?_⟩, ?_⟩ <;>
    (rintro rfl; revert hrange; decide)

theorem isDelimiter_of_isIdentifierChar {c : Char} (h : isIdentifierChar c = true) :
    isDelimiter c = false := by
  simp only [isIdentifierChar, Bool.or_eq_true, List.contains_iff_mem] at h
  rcases h with halphanum | hmark
  · exact isDelimiter_of_isAlphanum halphanum
  · have hmarks : identifierMarks.all (!isDelimiter ·) = true := by decide
    simpa using List.all_eq_true.1 hmarks c hmark

/-- The identifier for a name. -/
def named (name : String) : Lexeme := ⟨.id, identifier name⟩

theorem isWord_named {name : String} (h : isIdentifier name = true) : (named name).IsWord := by
  obtain ⟨hne, hall⟩ : name ≠ "" ∧ ∀ c ∈ name.toList, isIdentifierChar c = true := by
    simpa [isIdentifier] using h
  have htext : (identifier name).toList = '$' :: name.toList := by simp [identifier]
  refine ⟨?_, by simp [named, htext], fun c hc => ?_⟩
  · have hlist : name.toList.isEmpty = false := by simpa using hne
    simp [named, htext, classify, hlist]
  · rw [named, htext] at hc
    rcases List.mem_cons.1 hc with rfl | hc
    · decide
    · exact isDelimiter_of_isIdentifierChar (hall c hc)

end BulkMemory.Lexeme
