import BulkMemory.Proofs.Token.Placement
import BulkMemory.Token.Grammar

/-!
# Lexemes that stand side by side

Text that is put together from pieces falls into the lexemes of the pieces, as long as no lexeme
swallows what follows it. `Stands l rest` says that the lexeme `l` ends where `rest` begins, and
`Tiles ls rest` that consecutive lexemes do so up to `rest`. Runs of blanks may be cut anywhere: two
of them side by side are one lexeme, which changes nothing that carries meaning. `Tiles.append_iff`
takes tilings apart and joins them, and `Tiles.exists_run` says that the lexer finds the lexemes of
a tiling, with blanks in runs of another length at most.
-/

namespace BulkMemory.Lexeme
set_option autoImplicit false

open Lexer

/-- A lexeme ends where `rest` begins. A run of blanks may always end. -/
inductive Stands (l : Lexeme) (rest : List Char) : Prop where
  | whole : IsNext l.kind l.text.toList rest → Stands l rest
  | blank : l.kind = .blank → l.text.toList ≠ [] → (∀ c ∈ l.text.toList, isBlank c = true) →
      Stands l rest

/-- Consecutive lexemes in front of `rest`. -/
def Tiles : List Lexeme → List Char → Prop
  | [], _ => True
  | l :: ls, rest => Stands l (chars ls ++ rest) ∧ Tiles ls rest

theorem Tiles.append_iff {as bs : List Lexeme} {rest : List Char} :
    Tiles (as ++ bs) rest ↔ Tiles as (chars bs ++ rest) ∧ Tiles bs rest := by
  induction as with
  | nil => simp [Tiles]
  | cons a as ih => simp [Tiles, ih, and_assoc]

/-! ### What may follow a lexeme -/

theorem LongestRun.congr {test : Char → Bool} {cs rest rest' : List Char}
    (h : LongestRun test cs rest) (hhead : ∀ c ∈ rest'.head?, test c = false) :
    LongestRun test cs rest' := ⟨h.1, hhead⟩

/-- A lexeme sees only the first character behind it. -/
theorem IsNext.congr {kind : Kind} {text rest rest' : List Char} (h : IsNext kind text rest)
    (hhead : rest.head? = rest'.head?) : IsNext kind text rest' := by
  cases h with
  | leftParen hrest => exact .leftParen (hhead ▸ hrest)
  | rightParen => exact .rightParen
  | lineComment hcs => exact .lineComment (hcs.congr (hhead ▸ hcs.2))
  | blockComment hcs => exact .blockComment hcs
  | string hcs => exact .string hcs
  | blank hc hcs => exact .blank hc (hcs.congr (hhead ▸ hcs.2))
  | @atom c cs _ hblank hc hline hcs =>
    refine .atom hblank hc ?_ (hcs.congr (hhead ▸ hcs.2))
    rwa [List.head?_append, ← hhead, ← List.head?_append]

theorem IsNext.text_ne_nil {kind : Kind} {text rest : List Char} (h : IsNext kind text rest) :
    text ≠ [] := by
  cases h <;> simp

variable {l : Lexeme} {rest rest' : List Char}

theorem Stands.text_ne_nil (h : Stands l rest) : l.text.toList ≠ [] := by
  cases h with
  | whole h => exact h.text_ne_nil
  | blank _ h _ => exact h

theorem Stands.congr (h : Stands l rest) (hhead : rest.head? = rest'.head?) : Stands l rest' := by
  cases h with
  | whole h => exact .whole (h.congr hhead)
  | blank hkind hne hall => exact .blank hkind hne hall

/-- A run of blanks that is a lexeme of a text is made of blanks. -/
theorem IsNext.all_blank {text : List Char} (h : IsNext .blank text rest) :
    ∀ c ∈ text, isBlank c = true := by
  generalize hkind : Kind.blank = kind at h
  cases h with
  | blank hc hcs =>
    intro d hd
    rcases List.mem_cons.1 hd with rfl | hd
    · exact hc
    · exact hcs.1 d hd
  | @atom c cs hblank hc hline hcs =>
    simp only [classify] at hkind
    split at hkind
    · cases hkind
    · split at hkind
      · cases hkind
      · split at hkind
        · cases hkind
        · split at hkind <;> cases hkind
  | leftParen | rightParen | lineComment | blockComment | string => cases hkind

theorem Stands.all_blank (h : Stands l rest) (hkind : l.kind = .blank) :
    ∀ c ∈ l.text.toList, isBlank c = true := by
  cases h with
  | whole h => exact IsNext.all_blank (hkind ▸ h)
  | blank _ _ h => exact h

/-- A lexeme that ends in front of some text also ends at the end of all text. -/
theorem IsNext.at_end {kind : Kind} {text : List Char} (h : IsNext kind text rest) :
    IsNext kind text [] := by
  cases h with
  | leftParen => exact .leftParen (by simp)
  | rightParen => exact .rightParen
  | lineComment hcs => exact .lineComment (hcs.congr (by simp))
  | blockComment hcs => exact .blockComment hcs
  | string hcs => exact .string hcs
  | blank hc hcs => exact .blank hc (hcs.congr (by simp))
  | @atom c cs _ hblank hc hline hcs =>
    refine .atom hblank hc ?_ (hcs.congr (by simp))
    rintro ⟨rfl, hhead⟩
    apply hline
    rw [List.append_nil] at hhead
    rw [List.head?_append, hhead]
    exact ⟨rfl, rfl⟩

theorem Stands.at_end (h : Stands l rest) : Stands l [] := by
  cases h with
  | whole h => exact .whole h.at_end
  | blank hkind hne hall => exact .blank hkind hne hall

/-- Every lexeme that ends somewhere also ends at a line break. -/
theorem Stands.before_newline (h : Stands l rest) (after : List Char) :
    Stands l ('\n' :: after) := by
  have hend := h.at_end
  cases hend with
  | blank hkind hne hall => exact .blank hkind hne hall
  | whole h =>
    by_cases hkind : l.kind = .blank
    · exact .blank hkind h.text_ne_nil (IsNext.all_blank (hkind ▸ h))
    refine .whole ?_
    generalize l.kind = kind, l.text.toList = text at h hkind
    cases h with
    | leftParen => exact .leftParen (by simp)
    | rightParen => exact .rightParen
    | lineComment hcs => exact .lineComment (hcs.congr (by simp))
    | blockComment hcs => exact .blockComment hcs
    | string hcs => exact .string hcs
    | blank => exact absurd rfl hkind
    | @atom c cs _ hblank hc hline hcs =>
      refine .atom hblank hc ?_ (hcs.congr (by simp; decide))
      rintro ⟨rfl, hhead⟩
      cases cs with
      | nil => simp at hhead
      | cons d ds => exact hline ⟨rfl, by simpa using hhead⟩

/-- What follows a lexeme may begin with another character, unless that could be a part of it. -/
theorem Stands.change_head {c d : Char} {after : List Char} (h : Stands l (c :: after))
    (hc : isDelimiter c = false) (hd : d ≠ ';') (after' : List Char) : Stands l (d :: after') := by
  have hnewline : c ≠ '\n' := by rintro rfl; revert hc; decide
  cases h with
  | blank hkind hne hall => exact .blank hkind hne hall
  | whole h =>
    by_cases hkind : l.kind = .blank
    · exact .blank hkind h.text_ne_nil (IsNext.all_blank (hkind ▸ h))
    refine .whole ?_
    generalize l.kind = kind, l.text.toList = text at h hkind
    cases h with
    | leftParen => exact .leftParen (by simpa using hd)
    | rightParen => exact .rightParen
    | lineComment hcs => exact absurd (hcs.2 c rfl) (by simpa using hnewline)
    | blockComment hcs => exact .blockComment hcs
    | string hcs => exact .string hcs
    | blank => exact absurd rfl hkind
    | atom _ _ _ hcs => exact absurd (hcs.2 c rfl) (by simp [hc])

/-- A keyword or a number goes up to a delimiter. -/
theorem Stands.delimited (h : Stands l rest) (hkind : l.kind = .keyword ∨ l.kind = .number) :
    ∀ c ∈ rest.head?, isDelimiter c = true := by
  cases h with
  | blank hblank => rw [hblank] at hkind; simp at hkind
  | whole h =>
    generalize l.kind = kind, l.text.toList = text at h hkind
    cases h with
    | atom _ _ _ hcs => simpa using hcs.2
    | leftParen | rightParen | lineComment | blockComment | string | blank => simp at hkind

/-- A run of characters up to a delimiter is one lexeme, whatever its kind. -/
theorem isNext_atom {c : Char} {cs : List Char} (hc : isDelimiter c = false)
    (hcs : ∀ d ∈ cs, isDelimiter d = false) (hrest : ∀ d ∈ rest.head?, isDelimiter d = true) :
    IsNext (classify (c :: cs)) (c :: cs) rest := by
  simp only [isDelimiter, Bool.or_eq_false_iff, beq_eq_false_iff_ne] at hc
  obtain ⟨⟨⟨⟨hblank, hopen⟩, hshut⟩, hquote⟩, hsemicolon⟩ := hc
  refine .atom hblank (by simp [hopen, hshut, hquote]) (fun h => hsemicolon h.1)
    ⟨fun d hd => ?_, fun d hd => ?_⟩
  · simp [hcs d hd]
  · simp [hrest d hd]

/-! ### Tilings and what follows them -/

variable {ls : List Lexeme}

/-- What follows a tiling may be exchanged if its last lexeme does not notice. -/
theorem Tiles.change (h : Tiles ls rest) (hlast : ∀ l ∈ ls, Stands l rest → Stands l rest') :
    Tiles ls rest' := by
  induction ls with
  | nil => trivial
  | cons l ls ih =>
    obtain ⟨hl, hls⟩ := h
    refine ⟨?_, ih hls fun k hk => hlast k (List.mem_cons_of_mem l hk)⟩
    cases ls with
    | nil => exact hlast l List.mem_cons_self hl
    | cons k ks =>
      obtain ⟨c, cs, hcs⟩ := List.exists_cons_of_ne_nil hls.1.text_ne_nil
      exact hl.congr (by simp [hcs])

theorem Tiles.at_end (h : Tiles ls rest) : Tiles ls [] := h.change fun _ _ hl => hl.at_end

theorem Tiles.before_newline (h : Tiles ls rest) (after : List Char) : Tiles ls ('\n' :: after) :=
  h.change fun _ _ hl => hl.before_newline after

theorem Decomposes.tiles {cs : List Char} {ls : List Lexeme} (h : Decomposes cs ls none) :
    chars ls = cs ∧ Tiles ls [] := by
  generalize hfault : (none : Option LexFault) = fault? at h
  induction h with
  | done => exact ⟨rfl, trivial⟩
  | cons hnext _ ih =>
    obtain ⟨hchars, htiles⟩ := ih hfault
    refine ⟨by simp [hchars], .whole ?_, htiles⟩
    simpa [hchars] using hnext
  | openString | openComment => cases hfault

/-- The lexemes of a text tile it. -/
theorem tiles_of_run {cs : List Char} (h : run cs = (ls, none)) : chars ls = cs ∧ Tiles ls [] :=
  (decomposes_iff.2 h).tiles

/-- A lexeme that begins with a blank is a run of blanks. -/
theorem IsNext.blank_head {kind : Kind} {c : Char} {cs : List Char} (h : IsNext kind (c :: cs) rest)
    (hc : isBlank c = true) : kind = .blank ∧ LongestRun isBlank cs rest := by
  cases h with
  | blank _ hcs => exact ⟨rfl, hcs⟩
  | atom hblank => rw [hblank] at hc; cases hc
  | leftParen | rightParen | lineComment | blockComment | string => exact absurd hc (by decide)

/-- Two lists of lexemes differ only in how blanks are cut into runs: wherever the text begins, the
tokens that carry meaning are the same and stand at the same places. -/
def Regroups (ls ls' : List Lexeme) : Prop :=
  ∀ start position, Token.significant (Token.placeAll start position ls) =
    Token.significant (Token.placeAll start position ls')

variable {ls' : List Lexeme}

theorem Regroups.cons (h : Regroups ls ls') (l : Lexeme) : Regroups (l :: ls) (l :: ls') := by
  intro start position
  have hrest := h (start + l.size) (position.after l.text.toList)
  cases hl : l.isTrivia with
  | true =>
    rw [Token.placeAll, Token.placeAll, Token.significant_cons_of_trivia hl,
      Token.significant_cons_of_trivia hl, hrest]
  | false =>
    rw [Token.placeAll, Token.placeAll, Token.significant_cons_of_not_trivia hl,
      Token.significant_cons_of_not_trivia hl, hrest]

/-- Two runs of blanks side by side are as good as one. -/
theorem Regroups.join (a b : List Char) (ls : List Lexeme) :
    Regroups (⟨.blank, String.ofList (a ++ b)⟩ :: ls)
      (⟨.blank, String.ofList a⟩ :: ⟨.blank, String.ofList b⟩ :: ls) := by
  intro start position
  simp only [Token.placeAll]
  rw [Token.significant_cons_of_trivia rfl, Token.significant_cons_of_trivia rfl,
    Token.significant_cons_of_trivia rfl]
  simp [size, Nat.add_assoc, Position.after_append]

/-- The lexer finds the lexemes of a tiling, blanks regrouped. -/
theorem Tiles.exists_run (h : Tiles ls []) :
    ∃ ls', run (chars ls) = (ls', none) ∧ Regroups ls' ls := by
  simp only [← decomposes_iff]
  induction ls with
  | nil => exact ⟨[], .done, fun _ _ => rfl⟩
  | cons l ls ih =>
    obtain ⟨hl, hls⟩ := h
    obtain ⟨ls', hdec, hgroups⟩ := ih hls
    rw [List.append_nil] at hl
    have hself : l = ⟨l.kind, String.ofList l.text.toList⟩ := by rw [String.ofList_toList]
    have halone (hnext : IsNext l.kind l.text.toList (chars ls)) :
        ∃ ls', Decomposes (chars (l :: ls)) ls' none ∧ Regroups ls' (l :: ls) :=
      ⟨_, .cons hnext hdec, hself ▸ hgroups.cons l⟩
    cases hl with
    | whole hnext => exact halone hnext
    | blank hkind hne hall =>
      obtain ⟨c, cs, hcs⟩ := List.exists_cons_of_ne_nil hne
      have hc : isBlank c = true := hall c (by simp [hcs])
      have hblanks : ∀ d ∈ cs, isBlank d = true := fun d hd => hall d (by simp [hcs, hd])
      by_cases hstop : ∀ d ∈ (chars ls).head?, isBlank d = false
      · exact halone (by rw [hkind, hcs]; exact .blank hc ⟨hblanks, hstop⟩)
      -- the blanks go on in the first lexeme of the rest
      obtain ⟨d, hd, hblank⟩ : ∃ d ∈ (chars ls).head?, isBlank d = true := by simpa using hstop
      generalize htext : chars ls = text at hdec hd
      cases hdec with
      | done => cases hd
      | @cons kind text rest ls'' _ hnext hdec =>
        obtain ⟨e, es, rfl⟩ := List.exists_cons_of_ne_nil hnext.text_ne_nil
        obtain rfl : e = d := by simpa using hd
        obtain ⟨rfl, hrun⟩ := hnext.blank_head hblank
        have hjoined : IsNext .blank (l.text.toList ++ e :: es) rest := by
          rw [hcs]
          refine .blank hc ⟨fun b hb => ?_, hrun.2⟩
          rcases List.mem_append.1 hb with hb | hb
          · exact hblanks b hb
          · rcases List.mem_cons.1 hb with rfl | hb
            · exact hblank
            · exact hrun.1 b hb
        refine ⟨_, ?_, fun start position =>
          (Regroups.join l.text.toList (e :: es) ls'' start position).trans ?_⟩
        · rw [chars_cons, htext, ← List.append_assoc]
          exact .cons hjoined hdec
        · rw [← hkind, ← hself]
          exact hkind ▸ hgroups.cons l start position

theorem tokenize_of_tiles (h : Tiles ls []) :
    ∃ ts, tokenize (String.ofList (chars ls)) = .ok ts ∧
      Token.significant ts = Token.significant (Token.placeAll 0 .start ls) := by
  obtain ⟨ls', hrun, hgroups⟩ := h.exists_run
  refine ⟨Token.placeAll 0 .start ls', ?_, hgroups 0 .start⟩
  rw [tokenize, String.toList_ofList, hrun]

theorem tiles_of_tokenize {source : String} {ts : List Token} (h : tokenize source = .ok ts) :
    ∃ ls, ts = Token.placeAll 0 .start ls ∧ chars ls = source.toList ∧ Tiles ls [] := by
  rw [tokenize] at h
  split at h
  · next ls hrun =>
    cases h
    exact ⟨ls, rfl, tiles_of_run hrun⟩
  · cases h

end BulkMemory.Lexeme
