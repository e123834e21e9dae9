import BulkMemory.Proofs.Token.Closing
import BulkMemory.Proofs.Token.Tiling

/-!
# What the lexer accepts

`Lexeme.IsComplete` says what the complete lexeme at the front of a text is, for each kind, and
`Lexeme.NeverCloses` what a string or a comment without an end is. The lexer succeeds with some
tokens if and only if these are the complete lexemes of the source in a row, and it fails if and only
if such a row stops in front of something that never closes (`tokenize_exact`).
-/

namespace BulkMemory
set_option autoImplicit false

namespace Lexeme

/-- A text is the complete lexeme of its kind in front of `rest`. -/
inductive IsComplete : Kind → List Char → List Char → Prop where
  | leftParen {rest : List Char} : rest.head? ≠ some ';' → IsComplete .leftParen ['('] rest
  | rightParen {rest : List Char} : IsComplete .rightParen [')'] rest
  /-- Up to the end of the line, or of the text. -/
  | lineComment {cs rest : List Char} : '\n' ∉ cs → (rest = [] ∨ rest.head? = some '\n') →
      IsComplete .lineComment (';' :: ';' :: cs) rest
  | blockComment {text rest : List Char} : IsBlockComment text → IsComplete .blockComment text rest
  | string {text rest : List Char} : IsString text → IsComplete .string text rest
  | blank {text rest : List Char} : text ≠ [] → (∀ c ∈ text, isBlank c = true) →
      (∀ c ∈ rest.head?, isBlank c = false) → IsComplete .blank text rest
  /-- Any other character, and what follows it up to a delimiter. -/
  | atom {c : Char} {cs rest : List Char} :
      isBlank c = false → c ∉ ['(', ')', '"'] → ¬ [';', ';'] <+: c :: cs ++ rest →
      (∀ d ∈ cs, Lexer.isDelimiter d = false) → (∀ d ∈ rest.head?, Lexer.isDelimiter d = true) →
      IsComplete (Lexer.classify (c :: cs)) (c :: cs) rest

/-- A text begins with a string or a block comment that has no end. -/
def NeverCloses : LexFault → List Char → Prop
  | .unterminatedString, cs => cs.head? = some '"' ∧ ∀ front, front <+: cs → ¬ IsString front
  | .unterminatedComment, cs => ['(', ';'] <+: cs ∧ ∀ front, front <+: cs → ¬ IsBlockComment front

theorem isComplete_iff {kind : Kind} {text rest : List Char} :
    IsComplete kind text rest ↔ IsNext kind text rest := by
  constructor
  · intro h
    cases h with
    | leftParen hrest => exact .leftParen hrest
    | rightParen => exact .rightParen
    | lineComment hcs hrest =>
      refine .lineComment ⟨fun c hc => ?_, fun c hc => ?_⟩
      · rw [bne_iff_ne]
        rintro rfl
        exact hcs hc
      · rcases hrest with rfl | hrest
        · cases hc
        · rw [hrest] at hc
          obtain rfl : '\n' = c := by simpa using hc
          rfl
    | blockComment h =>
      obtain ⟨cs, rfl⟩ := h.opens
      exact .blockComment (isBlockComment_cons_iff.1 h)
    | string h =>
      obtain ⟨body, rfl, -⟩ := id h
      exact .string (isString_cons_iff.1 h)
    | blank hne hall hrest =>
      obtain ⟨c, cs, rfl⟩ := List.exists_cons_of_ne_nil hne
      obtain ⟨hc, hcs⟩ := List.forall_mem_cons.1 hall
      exact .blank hc ⟨hcs, hrest⟩
    | atom hblank hc hline hcs hrest =>
      refine .atom hblank hc ?_ ⟨fun d hd => by simp [hcs d hd], fun d hd => by simp [hrest d hd]⟩
      rintro ⟨rfl, hhead⟩
      obtain ⟨ds, hds⟩ := List.head?_eq_some_iff.1 hhead
      exact hline ⟨ds, by simp [hds]⟩
  · intro h
    cases h with
    | leftParen hrest => exact .leftParen hrest
    | rightParen => exact .rightParen
    | @lineComment cs _ hcs =>
      refine .lineComment (fun hmem => ?_) ?_
      · have hnewline := hcs.1 '\n' hmem
        simp at hnewline
      · cases rest with
        | nil => exact .inl rfl
        | cons c rest =>
          have hc := hcs.2 c rfl
          exact .inr (by simpa using hc)
    | blockComment h => exact .blockComment (isBlockComment_cons_iff.2 h)
    | string h => exact .string (isString_cons_iff.2 h)
    | blank hc hcs => exact .blank (by simp) (List.forall_mem_cons.2 ⟨hc, hcs.1⟩) hcs.2
    | @atom c cs _ hblank hc hline hcs =>
      refine .atom hblank hc ?_ (fun d hd => by simpa using hcs.1 d hd)
        fun d hd => by simpa using hcs.2 d hd
      rintro ⟨ds, hds⟩
      obtain ⟨rfl, hrest⟩ := List.cons.inj hds
      have hrest' : cs ++ rest = ';' :: ds := hrest.symm
      exact hline ⟨rfl, by rw [hrest']; rfl⟩

/-- Each lexeme of a row is complete in front of what follows it: the lexemes behind it, and then
`rest`. -/
def AllComplete (ls : List Lexeme) (rest : List Char) : Prop :=
  ∀ before l after, ls = before ++ l :: after → IsComplete l.kind l.text.toList (chars after ++ rest)

theorem allComplete_nil (rest : List Char) : AllComplete [] rest := fun before l after h => by
  simp at h

variable {l : Lexeme} {ls : List Lexeme} {cs rest : List Char}

theorem allComplete_cons_iff :
    AllComplete (l :: ls) rest ↔
      IsComplete l.kind l.text.toList (chars ls ++ rest) ∧ AllComplete ls rest := by
  constructor
  · intro h
    refine ⟨h [] l ls rfl, fun before k after hls => ?_⟩
    exact h (l :: before) k after (by rw [hls]; rfl)
  · rintro ⟨hl, hls⟩ before k after hsplit
    cases before with
    | nil =>
      obtain ⟨rfl, rfl⟩ := List.cons.inj hsplit
      exact hl
    | cons b before =>
      exact hls before k after (List.cons.inj hsplit).2

/-- The lexemes of a text are a row of complete lexemes that makes it up. -/
theorem decomposes_none_iff : Decomposes cs ls none ↔ chars ls = cs ∧ AllComplete ls [] := by
  constructor
  · intro h
    generalize hfault : (none : Option LexFault) = fault? at h
    induction h with
    | done => exact ⟨rfl, allComplete_nil []⟩
    | cons hnext _ ih =>
      obtain ⟨hchars, hcomplete⟩ := ih hfault
      refine ⟨by simp [hchars], allComplete_cons_iff.2 ⟨isComplete_iff.2 ?_, hcomplete⟩⟩
      simpa [hchars] using hnext
    | openString | openComment => cases hfault
  · rintro ⟨rfl, hcomplete⟩
    induction ls with
    | nil => exact .done
    | cons l ls ih =>
      obtain ⟨hl, hls⟩ := allComplete_cons_iff.1 hcomplete
      rw [List.append_nil] at hl
      have hcons := Decomposes.cons (isComplete_iff.1 hl) (ih hls)
      rwa [String.ofList_toList] at hcons

theorem neverCloses_string_iff :
    NeverCloses .unterminatedString ('"' :: cs) ↔
      ∀ front rest, cs = front ++ rest → ¬ StringTail front := by
  constructor
  · rintro ⟨-, hopen⟩ front rest rfl htail
    exact hopen ('"' :: front) (by simp) (isString_cons_iff.2 htail)
  · intro hopen
    refine ⟨rfl, fun front hfront hstring => ?_⟩
    obtain ⟨body, rfl, -⟩ := id hstring
    obtain ⟨rest, happend⟩ := hfront
    exact hopen _ rest (List.cons.inj happend).2.symm (isString_cons_iff.1 hstring)

theorem neverCloses_comment_iff :
    NeverCloses .unterminatedComment ('(' :: ';' :: cs) ↔
      ∀ front rest, cs = front ++ rest → ¬ CommentTail 1 front := by
  constructor
  · rintro ⟨-, hopen⟩ front rest rfl htail
    exact hopen ('(' :: ';' :: front) (by simp) (isBlockComment_cons_iff.2 htail)
  · intro hopen
    refine ⟨by simp, fun front hfront hcomment => ?_⟩
    obtain ⟨front, rfl⟩ := hcomment.opens
    obtain ⟨rest, rfl⟩ := (List.prefix_append_right_inj ['(', ';']).1 hfront
    exact hopen front rest rfl (isBlockComment_cons_iff.1 hcomment)

/-- The search for lexemes stops only at a text that begins with something that never closes. -/
theorem decomposes_fault_iff {fault : LexFault} :
    Decomposes cs [] (some fault) ↔ NeverCloses fault cs := by
  constructor
  · intro h
    generalize hls : ([] : List Lexeme) = ls, hfault : some fault = fault? at h
    cases h with
    | done => cases hfault
    | cons => cases hls
    | openString hopen =>
      cases hfault
      exact neverCloses_string_iff.2 hopen
    | openComment hopen =>
      cases hfault
      exact neverCloses_comment_iff.2 hopen
  · intro h
    cases fault with
    | unterminatedString =>
      obtain ⟨rest, rfl⟩ := List.head?_eq_some_iff.1 h.1
      exact .openString (neverCloses_string_iff.1 h)
    | unterminatedComment =>
      obtain ⟨rest, rfl⟩ := id h.1
      exact .openComment (neverCloses_comment_iff.1 h)

/-- A search that stops has found a row of complete lexemes in front of where it stops. -/
theorem decomposes_some_iff {fault : LexFault} :
    Decomposes cs ls (some fault) ↔
      ∃ rest, chars ls ++ rest = cs ∧ AllComplete ls rest ∧ NeverCloses fault rest := by
  constructor
  · intro h
    generalize hfault : some fault = fault? at h
    induction h with
    | done => cases hfault
    | cons hnext _ ih =>
      obtain ⟨rest, rfl, hcomplete, hopen⟩ := ih hfault
      refine ⟨rest, by simp, allComplete_cons_iff.2 ⟨isComplete_iff.2 ?_, hcomplete⟩, hopen⟩
      simpa using hnext
    | openString hopen =>
      cases hfault
      exact ⟨_, rfl, allComplete_nil _, neverCloses_string_iff.2 hopen⟩
    | openComment hopen =>
      cases hfault
      exact ⟨_, rfl, allComplete_nil _, neverCloses_comment_iff.2 hopen⟩
  · rintro ⟨rest, rfl, hcomplete, hopen⟩
    induction ls with
    | nil => exact decomposes_fault_iff.2 hopen
    | cons l ls ih =>
      obtain ⟨hl, hls⟩ := allComplete_cons_iff.1 hcomplete
      have hcons := Decomposes.cons (isComplete_iff.1 hl) (ih hls)
      rw [String.ofList_toList, ← List.append_assoc] at hcons
      exact hcons

end Lexeme

open Lexeme

/-- The place of the character behind a text: its line is told by the line feeds in the text, and its
column by the characters behind the last of them. -/
def placeBehind (front : List Char) : Position :=
  ⟨1 + front.count '\n', 1 + (front.reverse.takeWhile (· != '\n')).length⟩

theorem start_after (front : List Char) : Position.start.after front = placeBehind front := by
  have hreverse := Position.start_after_reverse front.reverse
  rwa [List.reverse_reverse, List.count_reverse] at hreverse

namespace Token

/-- Each token stands behind the lexemes in front of it, the first one at the given place. -/
def AllPlaced (start : Nat) (position : Position) (ts : List Token) : Prop :=
  ∀ before t after, ts = before ++ t :: after →
    t.start = start + byteSize (chars (before.map toLexeme)) ∧
      t.position = position.after (chars (before.map toLexeme))

theorem allPlaced_iff {start : Nat} {position : Position} {ts : List Token} :
    AllPlaced start position ts ↔ ts = placeAll start position (ts.map toLexeme) := by
  constructor
  · intro h
    induction ts generalizing start position with
    | nil => rfl
    | cons t ts ih =>
      have hhead := h [] t ts rfl
      have htail : AllPlaced (start + t.size) (position.after t.text.toList) ts := by
        intro before k after hsplit
        have hk := h (t :: before) k after (by rw [hsplit]; rfl)
        rwa [List.map_cons, add_byteSize_chars_cons, chars_cons, Position.after_append] at hk
      rw [List.map_cons, placeAll, ← ih htail]
      obtain ⟨l, tstart, tposition⟩ := t
      obtain ⟨rfl, rfl⟩ := hhead
      rfl
  · intro h before t after hsplit
    rw [hsplit] at h
    obtain ⟨as, bs, -, hbefore, hrest⟩ := exists_of_placeAll_eq_append h.symm
    cases bs with
    | nil => cases hrest
    | cons l ls =>
      rw [placeAll] at hrest
      obtain rfl := (List.cons.inj hrest).1
      rw [← hbefore, map_toLexeme_placeAll]
      exact ⟨rfl, rfl⟩

end Token

/-- Some tokens are those of a source: consecutive slices that cover it, each of them the complete
lexeme of its kind, and each at its place. -/
structure AreTokensOf (source : String) (ts : List Token) : Prop where
  covering : chars (ts.map Token.toLexeme) = source.toList
  complete : AllComplete (ts.map Token.toLexeme) []
  placed : ∀ before t after, ts = before ++ t :: after →
    t.start = byteSize (chars (before.map Token.toLexeme)) ∧
      t.position = placeBehind (chars (before.map Token.toLexeme))

theorem tokenize_eq_ok_iff {source : String} {ts : List Token} :
    tokenize source = .ok ts ↔
      Decomposes source.toList (ts.map Token.toLexeme) none ∧ Token.AllPlaced 0 .start ts := by
  rw [decomposes_iff, Token.allPlaced_iff, tokenize]
  constructor
  · intro h
    split at h
    · next ls hrun =>
      cases h
      simp [hrun]
    · cases h
  · rintro ⟨hrun, hplaced⟩
    rw [hrun]
    exact congrArg Except.ok hplaced.symm

theorem areTokensOf_iff {source : String} {ts : List Token} :
    AreTokensOf source ts ↔ tokenize source = .ok ts := by
  rw [tokenize_eq_ok_iff, decomposes_none_iff]
  simp only [Token.AllPlaced, Nat.zero_add, start_after]
  exact ⟨fun h => ⟨⟨h.covering, h.complete⟩, h.placed⟩, fun h => ⟨h.1.1, h.1.2, h.2⟩⟩

theorem tokenize_eq_error_iff {source : String} {fault : LexFault} {p : Position} :
    tokenize source = .error ⟨fault, p⟩ ↔
      ∃ ls, Decomposes source.toList ls (some fault) ∧ p = placeBehind (chars ls) := by
  simp only [decomposes_iff, ← start_after]
  rw [tokenize]
  constructor
  · intro h
    split at h
    · cases h
    · next ls _ hrun =>
      cases h
      exact ⟨ls, hrun, rfl⟩
  · rintro ⟨ls, hrun, rfl⟩
    rw [hrun]

/-- The lexer accepts exactly its grammar. It succeeds with some tokens if and only if they are the
only ones of the source; it fails if and only if a row of complete lexemes from the front of the source
stops at a string or a comment that never closes, and it gives the place of the character that opens
this. -/
theorem tokenize_exact (source : String) :
    (∀ ts, tokenize source = .ok ts ↔
      AreTokensOf source ts ∧ ∀ ts', AreTokensOf source ts' → ts' = ts) ∧
    ∀ fault p, tokenize source = .error ⟨fault, p⟩ ↔
      ∃ ls rest, chars ls ++ rest = source.toList ∧ AllComplete ls rest ∧ NeverCloses fault rest ∧
        p = placeBehind (chars ls) := by
  refine ⟨fun ts => ?_, fun fault p => ?_⟩
  · simp only [areTokensOf_iff]
    refine ⟨fun h => ⟨h, fun ts' h' => ?_⟩, fun h => h.1⟩
    rw [h] at h'
    cases h'
    rfl
  · rw [tokenize_eq_error_iff]
    simp only [decomposes_some_iff]
    constructor
    · rintro ⟨ls, ⟨rest, hcover, hcomplete, hopen⟩, hp⟩
      exact ⟨ls, rest, hcover, hcomplete, hopen, hp⟩
    · rintro ⟨ls, rest, hcover, hcomplete, hopen, hp⟩
      exact ⟨ls, ⟨rest, hcover, hcomplete, hopen⟩, hp⟩

end BulkMemory
