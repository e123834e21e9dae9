import BulkMemory.Proofs.Loop
import BulkMemory.Proofs.Token.Placement
import BulkMemory.Text.Slice

/-!
# The lexer at byte offsets

A `Cursor` is a byte offset into a text and the position there. The functions of this module cut a
text into tokens by moving a cursor and slicing the text at its offset, and they come to nothing when a
slice does not fit (`isSome_slice?_iff`). Their loops have no bound (`loop?`), and a loop without an end
comes to nothing as well. So `Cursor.tokens?_eq` says two things beyond what the tokens are, that every
slice fits and that every loop ends.
-/

namespace BulkMemory
set_option autoImplicit false

/-- A byte offset into a text and the position there. -/
structure Cursor where
  offset : Nat
  position : Position
deriving DecidableEq, Repr

namespace Cursor

/-- The cursor in front of a text. -/
def start : Cursor := ⟨0, .start⟩

/-- The cursor past some more characters. -/
def past (c : Cursor) (cs : List Char) : Cursor :=
  ⟨c.offset + byteSize cs, c.position.after cs⟩

@[simp] theorem past_nil (c : Cursor) : c.past [] = c := rfl

theorem past_append (c : Cursor) (a b : List Char) : c.past (a ++ b) = (c.past a).past b := by
  simp only [past, byteSize_append, Nat.add_assoc, Position.after_append]

theorem past_cons (c : Cursor) (ch : Char) (cs : List Char) :
    c.past (ch :: cs) = (c.past [ch]).past cs :=
  past_append c [ch] cs

/-- The text from a cursor to the end. -/
def rest? (text : List Char) (c : Cursor) : Option (List Char) :=
  slice? ⟨c.offset, byteSize text⟩ text

/-- Take the next character, if there is one. -/
def bump? (text : List Char) (c : Cursor) : Option (Option Char × Cursor) := do
  match ← c.rest? text with
  | [] => return (none, c)
  | ch :: _ => return (some ch, ⟨c.offset + ch.utf8Size, c.position.advance ch⟩)

/-- Take some characters, as far as there are any. -/
def skip? (text : List Char) : Nat → Cursor → Option Cursor
  | 0, c => some c
  | count + 1, c => do
    let (_, c) ← c.bump? text
    skip? text count c

/-- Take one character, if it satisfies a predicate; else the cursor has arrived. -/
def skipRound? (text : List Char) (p : Char → Bool) (c : Cursor) : Option (Cursor ⊕ Cursor) := do
  let rest ← c.rest? text
  if rest.head?.any p then
    let (_, c) ← c.bump? text
    return .inr c
  else return .inl c

/-- Take characters as long as they satisfy a predicate. -/
noncomputable def skipWhile? (text : List Char) (p : Char → Bool) (c : Cursor) : Option Cursor :=
  loop? (skipRound? text p) c

/-- Take one character or delimiter of a block comment of which `depth` openings wait for their end. -/
def commentRound? (text : List Char) :
    Nat × Cursor → Option (Except LexFault Cursor ⊕ Nat × Cursor)
  | (depth, c) =>
    if depth = 0 then some (.inl (.ok c))
    else do
      let rest ← c.rest? text
      if ['(', ';'].isPrefixOf rest then
        let c ← c.skip? text 2
        return .inr (depth + 1, c)
      else if [';', ')'].isPrefixOf rest then
        let c ← c.skip? text 2
        return .inr (depth - 1, c)
      else
        match ← c.bump? text with
        | (none, _) => return .inl (.error .unterminatedComment)
        | (some _, c) => return .inr (depth, c)

/-- Take the rest of a block comment of which `depth` openings wait for their end. -/
noncomputable def closeComment? (text : List Char) (depth : Nat) (c : Cursor) :
    Option (Except LexFault Cursor) :=
  loop? (commentRound? text) (depth, c)

/-- Take one character of a string, and the one behind a backslash with it. -/
def stringRound? (text : List Char) (c : Cursor) : Option (Except LexFault Cursor ⊕ Cursor) := do
  match ← c.bump? text with
  | (none, _) => return .inl (.error .unterminatedString)
  | (some '\\', c) =>
    match ← c.bump? text with
    | (none, _) => return .inl (.error .unterminatedString)
    | (some _, c) => return .inr c
  | (some '"', c) => return .inl (.ok c)
  | (some _, c) => return .inr c

/-- Take the rest of a string up to its closing quote. -/
noncomputable def closeString? (text : List Char) (c : Cursor) :
    Option (Except LexFault Cursor) :=
  loop? (stringRound? text) c

/-- Take a lexeme, if there is one: its kind, and the cursor behind it. -/
noncomputable def lexeme? (text : List Char) (c : Cursor) :
    Option (Except LexFault (Option (Kind × Cursor))) := do
  let rest ← c.rest? text
  match rest.head? with
  | none => return .ok none
  | some ch =>
    if ['(', ';'].isPrefixOf rest then
      let body ← c.skip? text 2
      let closed ← closeComment? text 1 body
      return closed.map fun stop => some (.blockComment, stop)
    else if ch = '(' then
      let (_, stop) ← c.bump? text
      return .ok (some (.leftParen, stop))
    else if ch = ')' then
      let (_, stop) ← c.bump? text
      return .ok (some (.rightParen, stop))
    else if [';', ';'].isPrefixOf rest then
      let stop ← skipWhile? text (· != '\n') c
      return .ok (some (.lineComment, stop))
    else if ch = '"' then
      let (_, body) ← c.bump? text
      let closed ← closeString? text body
      return closed.map fun stop => some (.string, stop)
    else if isBlank ch then
      let stop ← skipWhile? text isBlank c
      return .ok (some (.blank, stop))
    else
      -- the first character is taken whatever it is
      let (_, second) ← c.bump? text
      let stop ← skipWhile? text (!Lexer.isDelimiter ·) second
      let atom ← slice? ⟨c.offset, stop.offset⟩ text
      return .ok (some (Lexer.classify atom, stop))

/-- Take a token behind those taken before. The text of each token is sliced here, although only some of
them are read later. -/
noncomputable def tokenRound? (text : List Char) :
    Cursor × List Token → Option (Except LexError (List Token) ⊕ Cursor × List Token)
  | (c, ts) => do
    match ← c.lexeme? text with
    | .error fault => return .inl (.error ⟨fault, c.position⟩)
    | .ok none => return .inl (.ok ts)
    | .ok (some (kind, stop)) =>
      let chars ← slice? ⟨c.offset, stop.offset⟩ text
      return .inr (stop, ts ++
        [{ kind, text := String.ofList chars, start := c.offset, position := c.position }])

/-- The tokens from a cursor to the end of a text, or the first lexeme that does not end. -/
noncomputable def tokens? (text : List Char) (c : Cursor) : Option (Except LexError (List Token)) :=
  loop? (tokenRound? text) (c, [])

/-! ### What a cursor reads -/

variable {text cs a b : List Char} {c : Cursor} {ch : Char} {p : Char → Bool}

/-- The text from a cursor on is what follows a front of the size of its offset. -/
theorem rest?_eq_some_iff :
    c.rest? text = some cs ↔ ∃ a, text = a ++ cs ∧ c.offset = byteSize a := by
  rw [rest?, slice?_eq_some_iff]
  constructor
  · rintro ⟨a, b, rfl, hspan⟩
    rw [Span.mk.injEq, byteSize_append, byteSize_append] at hspan
    obtain rfl : b = [] := by
      cases b with
      | nil => rfl
      | cons ch b =>
        have hpos := Char.utf8Size_pos ch
        rw [byteSize_cons] at hspan
        omega
    exact ⟨a, by simp, hspan.1⟩
  · rintro ⟨a, rfl, hoffset⟩
    exact ⟨a, [], by simp, by rw [hoffset, byteSize_append]⟩

theorem rest?_start (text : List Char) : start.rest? text = some text :=
  rest?_eq_some_iff.2 ⟨[], rfl, rfl⟩

/-- A cursor that moves over a part of the text is in front of what follows it. -/
theorem rest?_past (h : c.rest? text = some (a ++ b)) : (c.past a).rest? text = some b := by
  obtain ⟨front, rfl, hoffset⟩ := rest?_eq_some_iff.1 h
  refine rest?_eq_some_iff.2 ⟨front ++ a, by simp, ?_⟩
  rw [byteSize_append, ← hoffset]
  rfl

/-- What a cursor moved over can be sliced. -/
theorem slice?_past (h : c.rest? text = some (a ++ b)) :
    slice? ⟨c.offset, (c.past a).offset⟩ text = some a := by
  obtain ⟨front, rfl, hoffset⟩ := rest?_eq_some_iff.1 h
  exact slice?_eq_some_iff.2 ⟨front, b, rfl, by rw [past, hoffset]⟩

theorem bump?_nil (h : c.rest? text = some []) : c.bump? text = some (none, c) := by
  rw [bump?, h]
  rfl

theorem bump?_cons (h : c.rest? text = some (ch :: cs)) :
    c.bump? text = some (some ch, c.past [ch]) := by
  rw [bump?, h]
  rfl

theorem rest?_past_cons (h : c.rest? text = some (ch :: cs)) :
    (c.past [ch]).rest? text = some cs :=
  rest?_past (a := [ch]) h

theorem skip?_two {ch' : Char} (h : c.rest? text = some (ch :: ch' :: cs)) :
    c.skip? text 2 = some (c.past [ch, ch']) := by
  simp only [skip?, bump?_cons h, bump?_cons (rest?_past_cons h), Option.bind_eq_bind,
    Option.bind_some, past_cons c ch [ch']]

theorem isPrefixOf_two (ch' ch'' : Char) :
    [ch', ch''].isPrefixOf (ch :: cs) = (ch == ch' && cs.head? == some ch'') := by
  cases cs with
  | nil => simp [List.isPrefixOf]
  | cons ch cs => simp [List.isPrefixOf, BEq.comm]

theorem isPrefixOf_two_eq_false {ch' ch'' : Char}
    (h : ∀ tail, ch = ch' → cs = ch'' :: tail → False) :
    [ch', ch''].isPrefixOf (ch :: cs) = false := by
  rw [← Bool.not_eq_true, List.isPrefixOf_iff_prefix]
  rintro ⟨tail, htail⟩
  cases htail
  exact h tail rfl rfl

/-! ### The loops -/

theorem skipWhile?_eq (h : c.rest? text = some cs) :
    skipWhile? text p c = some (c.past (cs.takeWhile p)) := by
  induction cs generalizing c with
  | nil =>
    apply loop?_done
    rw [skipRound?, h]
    rfl
  | cons ch cs ih =>
    rw [List.takeWhile_cons]
    cases hp : p ch with
    | false =>
      apply loop?_done
      simp [skipRound?, h, hp]
    | true =>
      have hround : skipRound? text p c = some (.inr (c.past [ch])) := by
        simp [skipRound?, h, hp, bump?_cons h]
      rw [skipWhile?, loop?_next hround, ← skipWhile?, ih (rest?_past_cons h)]
      simp [past_cons c ch (cs.takeWhile p)]

/-- Where a search that cuts the text behind a cursor leaves the cursor. -/
def reached (c : Cursor) (fault : LexFault) :
    Option (List Char × List Char) → Except LexFault Cursor
  | some (front, _) => .ok (c.past front)
  | none => .error fault

theorem reached_map (c : Cursor) (fault : LexFault) (a : List Char)
    (cut? : Option (List Char × List Char)) :
    c.reached fault (cut?.map fun (front, rest) => (a ++ front, rest)) =
      (c.past a).reached fault cut? := by
  cases cut? with
  | none => rfl
  | some cut =>
    show Except.ok (c.past (a ++ cut.1)) = Except.ok ((c.past a).past cut.1)
    rw [past_append]

theorem commentRound?_opening {depth : Nat} (h : c.rest? text = some ('(' :: ';' :: cs)) :
    commentRound? text (depth + 1, c) = some (.inr (depth + 2, c.past ['(', ';'])) := by
  rw [commentRound?, if_neg (Nat.succ_ne_zero depth), h]
  simp only [skip?_two h]
  rfl

theorem commentRound?_ending {depth : Nat} (h : c.rest? text = some (';' :: ')' :: cs)) :
    commentRound? text (depth + 1, c) = some (.inr (depth, c.past [';', ')'])) := by
  rw [commentRound?, if_neg (Nat.succ_ne_zero depth), h]
  simp only [skip?_two h]
  rfl

theorem commentRound?_other {depth : Nat} (h : c.rest? text = some (ch :: cs))
    (hopening : ∀ tail, ch = '(' → cs = ';' :: tail → False)
    (hending : ∀ tail, ch = ';' → cs = ')' :: tail → False) :
    commentRound? text (depth + 1, c) = some (.inr (depth + 1, c.past [ch])) := by
  rw [commentRound?, if_neg (Nat.succ_ne_zero depth), h]
  simp only [bump?_cons h, isPrefixOf_two_eq_false hopening, isPrefixOf_two_eq_false hending,
    Option.bind_eq_bind, Option.bind_some, Bool.false_eq_true, if_false]
  rfl

theorem closeComment?_eq {depth : Nat} (h : c.rest? text = some cs) :
    closeComment? text depth c =
      some (c.reached .unterminatedComment (Lexer.closeComment depth cs)) := by
  fun_induction Lexer.closeComment depth cs generalizing c with
  | case1 cs =>
    apply loop?_done
    rw [commentRound?, if_pos rfl]
    rfl
  | case2 depth =>
    apply loop?_done
    rw [commentRound?, if_neg (Nat.succ_ne_zero depth), h]
    simp only [bump?_nil h]
    rfl
  | case3 depth cs ih =>
    rw [closeComment?, loop?_next (commentRound?_opening h), ← closeComment?,
      ih (rest?_past (a := ['(', ';']) h)]
    exact congrArg some (reached_map c _ ['(', ';'] _).symm
  | case4 depth cs ih =>
    rw [closeComment?, loop?_next (commentRound?_ending h), ← closeComment?,
      ih (rest?_past (a := [';', ')']) h)]
    exact congrArg some (reached_map c _ [';', ')'] _).symm
  | case5 depth ch cs hopening hending ih =>
    rw [closeComment?, loop?_next (commentRound?_other h hopening hending), ← closeComment?,
      ih (rest?_past_cons h)]
    exact congrArg some (reached_map c _ [ch] _).symm

theorem closeString?_eq (h : c.rest? text = some cs) :
    closeString? text c = some (c.reached .unterminatedString (Lexer.closeString cs)) := by
  fun_induction Lexer.closeString cs generalizing c with
  | case1 =>
    apply loop?_done
    rw [stringRound?, bump?_nil h]
    rfl
  | case2 cs =>
    apply loop?_done
    rw [stringRound?, bump?_cons h]
    rfl
  | case3 =>
    apply loop?_done
    rw [stringRound?, bump?_cons h]
    simp only [bump?_nil (rest?_past_cons h), Option.bind_eq_bind, Option.bind_some]
    rfl
  | case4 ch cs ih =>
    have hrest : (c.past ['\\', ch]).rest? text = some cs := rest?_past h
    have hround : stringRound? text c = some (.inr (c.past ['\\', ch])) := by
      rw [stringRound?, bump?_cons h]
      simp only [bump?_cons (rest?_past_cons h), Option.bind_eq_bind, Option.bind_some]
      rw [← past_cons]
      rfl
    rw [closeString?, loop?_next hround, ← closeString?, ih hrest]
    exact congrArg some (reached_map c _ ['\\', ch] _).symm
  | case5 ch cs hquote hlast hescape ih =>
    have hplain : ch ≠ '\\' := by
      intro hch
      cases cs with
      | nil => exact hlast hch rfl
      | cons ch' cs => exact hescape ch' cs hch rfl
    have hround : stringRound? text c = some (.inr (c.past [ch])) := by
      rw [stringRound?, bump?_cons h]
      simp only [Option.bind_eq_bind, Option.bind_some]
      rfl
    rw [closeString?, loop?_next hround, ← closeString?, ih (rest?_past_cons h)]
    exact congrArg some (reached_map c _ [ch] _).symm

/-! ### Lexemes and tokens -/

theorem lexeme?_nil (h : c.rest? text = some []) : c.lexeme? text = some (.ok none) := by
  rw [lexeme?, h]
  rfl

/-- A search behind the opening of a lexeme gives the lexeme. -/
theorem map_reached (c : Cursor) (kind : Kind) (fault : LexFault) (a : List Char)
    (cut? : Option (List Char × List Char)) :
    ((c.past a).reached fault cut?).map (fun stop => some (kind, stop)) =
      (match cut? with
        | some (front, rest) => Except.ok ⟨kind, a ++ front, rest⟩
        | none => Except.error fault : Except LexFault Lexer.Step).map
        fun s => some (s.kind, c.past s.text) := by
  cases cut? with
  | none => rfl
  | some cut =>
    show Except.ok (some (kind, (c.past a).past cut.1)) =
      Except.ok (some (kind, c.past (a ++ cut.1)))
    rw [past_append]

/-- A cursor takes the lexeme that the lexer takes off the text behind it. -/
theorem lexeme?_cons (h : c.rest? text = some (ch :: cs)) :
    c.lexeme? text = some ((Lexer.next ch cs).map fun s => some (s.kind, c.past s.text)) := by
  rw [lexeme?, h]
  unfold Lexer.next
  simp only [List.head?_cons, Option.bind_eq_bind, Option.bind_some, isPrefixOf_two]
  -- the tests are those of the lexer, but it looks for a quote before a line comment
  by_cases hopen : ch = '('
  · subst hopen
    cases cs with
    | nil => simp [bump?_cons h, Except.map]
    | cons ch' body =>
      by_cases hcomment : ch' = ';'
      · subst hcomment
        have hclosed : closeComment? text 1 (c.past ['(', ';']) =
            some ((c.past ['(', ';']).reached .unterminatedComment (Lexer.closeComment 1 body)) :=
          closeComment?_eq (rest?_past h)
        simp only [skip?_two h, hclosed, Option.bind_some, map_reached]
        rfl
      · simp [hcomment, bump?_cons h, Except.map]
  by_cases hclose : ch = ')'
  · subst hclose
    simp [bump?_cons h, Except.map]
  by_cases hquote : ch = '"'
  · subst hquote
    have hclosed := closeString?_eq (rest?_past_cons h)
    simp only [bump?_cons h, hclosed, Option.bind_some, map_reached]
    rfl
  by_cases hline : ch = ';' ∧ cs.head? = some ';'
  · obtain ⟨rfl, hsecond⟩ := hline
    simp [hsecond, skipWhile?_eq h, Except.map]
  have hplain : (ch == ';' && cs.head? == some ';') = false := by simpa using hline
  by_cases hblank : isBlank ch = true
  · simp [hopen, hclose, hquote, hplain, hline, hblank, skipWhile?_eq h, Except.map]
  · have hatom : slice? ⟨c.offset, (c.past (ch :: cs.takeWhile (!Lexer.isDelimiter ·))).offset⟩ text =
        some (ch :: cs.takeWhile (!Lexer.isDelimiter ·)) :=
      slice?_past (b := cs.dropWhile (!Lexer.isDelimiter ·)) (by simp [h])
    have hstop := skipWhile?_eq (p := (!Lexer.isDelimiter ·)) (rest?_past_cons h)
    rw [← past_cons] at hstop
    simp [hopen, hclose, hquote, hplain, hline, hblank, bump?_cons h, hstop, hatom, Except.map]

/-- The tokens that a cursor takes behind others are those of the lexer. -/
theorem loop?_tokenRound? (h : c.rest? text = some cs) (taken : List Token) :
    loop? (tokenRound? text) (c, taken) = some (match Lexer.run cs with
      | (ls, none) => .ok (taken ++ Token.placeAll c.offset c.position ls)
      | (ls, some fault) => .error ⟨fault, c.position.after (Lexeme.chars ls)⟩) := by
  fun_induction Lexer.run cs generalizing c taken with
  | case1 =>
    apply loop?_done
    rw [tokenRound?, lexeme?_nil h]
    simp
  | case2 ch cs fault hnext =>
    apply loop?_done
    rw [tokenRound?, lexeme?_cons h, hnext]
    rfl
  | case3 ch cs s hnext ls fault? hrun ih =>
    -- the cursor moves past one lexeme, so the text of it is behind the old cursor
    have happend := Lexer.next_eq_append hnext
    rw [happend] at h
    have hround : tokenRound? text (c, taken) = some (.inr (c.past s.text, taken ++
        [⟨⟨s.kind, String.ofList s.text⟩, c.offset, c.position⟩])) := by
      rw [tokenRound?, lexeme?_cons (happend ▸ h), hnext]
      simp only [Except.map, Option.bind_eq_bind, Option.bind_some, slice?_past h]
      rfl
    rw [loop?_next hround, ih (rest?_past h), hrun]
    have hsize : (⟨s.kind, String.ofList s.text⟩ : Lexeme).size = byteSize s.text := by
      rw [Lexeme.size, String.toList_ofList]
    cases fault? with
    | none =>
      simp only [Token.placeAll, hsize, String.toList_ofList, List.append_assoc]
      rfl
    | some fault =>
      simp only [Lexeme.chars_cons, String.toList_ofList, Position.after_append]
      rfl

/-- The tokens that a cursor takes are those of the lexer. -/
theorem tokens?_eq (h : c.rest? text = some cs) :
    tokens? text c = some (match Lexer.run cs with
      | (ls, none) => .ok (Token.placeAll c.offset c.position ls)
      | (ls, some fault) => .error ⟨fault, c.position.after (Lexeme.chars ls)⟩) := by
  rw [tokens?, loop?_tokenRound? h]
  rfl

theorem tokens?_start (source : String) :
    tokens? source.toList start = some (tokenize source) := by
  rw [tokens?_eq (rest?_start source.toList), tokenize]
  rfl

end Cursor

end BulkMemory
