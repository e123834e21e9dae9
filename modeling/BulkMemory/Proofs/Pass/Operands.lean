import Mathlib.Data.List.Nodup
import BulkMemory.Proofs.Occurrence.Operand
import BulkMemory.Proofs.Pass.Breaks
import BulkMemory.Proofs.Pass.Success

/-!
# The operand that a run refuses

A run that fails for an operand has found one in the module itself (`Pass.run_blames`), but the place
that it names is one of the enlarged module. In front of the anchor the two are the same. Behind it the
functions have moved the operand, so the place that the run names is none of the operand in the module
(`Pass.not_run_points`).
-/

namespace BulkMemory
set_option autoImplicit false

open Lexeme

/-! ### Places and tokens -/

namespace Token

theorem placeAll_append_cons (start : Nat) (position : Position) (as : List Lexeme) (l : Lexeme)
    (bs : List Lexeme) :
    placeAll start position (as ++ l :: bs) =
      placeAll start position as ++
        ⟨l, start + byteSize (chars as), position.after (chars as)⟩ ::
          placeAll (start + byteSize (chars (as ++ [l]))) (position.after (chars (as ++ [l]))) bs := by
  rw [placeAll_append, placeAll]
  simp [size, Position.after_append, Nat.add_assoc]

theorem exists_position_eq {start : Nat} {position : Position} {ls : List Lexeme} {t : Token}
    (h : t ∈ placeAll start position ls) : ∃ cs, t.position = position.after cs := by
  obtain ⟨before, after, hsplit⟩ := List.append_of_mem h
  obtain ⟨as, bs, -, -, hbehind⟩ := exists_of_placeAll_eq_append hsplit
  cases bs with
  | nil => cases hbehind
  | cons l bs =>
    rw [placeAll, List.cons.injEq] at hbehind
    exact ⟨chars as, congrArg Token.position hbehind.1.symm⟩

/-- No two tokens of a text stand at one place. -/
theorem nodup_position_placeAll {ls : List Lexeme} (h : ∀ l ∈ ls, 0 < l.size) (start : Nat)
    (position : Position) : ((placeAll start position ls).map Token.position).Nodup := by
  induction ls generalizing start position with
  | nil => exact .nil
  | cons l ls ih =>
    refine List.nodup_cons.2 ⟨fun hmem => ?_, ih (fun k hk => h k (List.mem_cons_of_mem l hk)) _ _⟩
    obtain ⟨u, hu, hsame⟩ := List.mem_map.1 hmem
    obtain ⟨cs, hcs⟩ := exists_position_eq hu
    rw [← Position.after_append, hsame] at hcs
    refine position.after_ne_self (fun hnil => ?_) hcs.symm
    have hsize : 0 < byteSize l.text.toList := h l List.mem_cons_self
    rw [(List.append_eq_nil_iff.1 hnil).1] at hsize
    exact Nat.lt_irrefl 0 hsize

end Token

theorem lineBreaks_pos {ops : List Op} (h : ops ≠ []) (wrapped : Bool) :
    0 < lineBreaks ops wrapped := by
  obtain ⟨op, ops, rfl⟩ := List.exists_cons_of_ne_nil h
  rw [lineBreaks, List.map_cons, insertedText_cons]
  simp

namespace Pass

/-! ### The place that a run names -/

/-- A place of a module behind the anchor, and what becomes of it in the enlarged module: the lines of
the functions are in front of it, and the line of the anchor begins anew behind them. -/
structure Moved (source : String) (layout : Layout) (ops : List Op) (old new : Position) : Prop where
  line : new.line = old.line + lineBreaks ops layout.wrapped
  place : ∃ front gap rest, source.toList = front ++ (gap ++ rest) ∧
    byteSize front = layout.anchor ∧ old = Position.start.after (front ++ gap) ∧
    new = Position.after ⟨(Position.start.after front).line + lineBreaks ops layout.wrapped, 1⟩ gap

/-- A run has refused an instruction for an operand, a token of the module, and names a place for it. -/
structure Blamed (source : String) (ts : List Token) (layout : Layout) (mnemonic operand : String)
    (before : List Token) (t : Token) (after : List Token) (p : Position) : Prop where
  cut : ts = before ++ t :: after
  blames : Blames mnemonic operand (before.map Token.toLexeme) t.toLexeme
  alone : ∀ u ∈ ts, u.position = t.position → u = t
  in_front : t.start < layout.anchor → p = t.position
  behind : layout.anchor ≤ t.start → Moved source layout (Detection.scan ts).ops t.position p

theorem Moved.ne {source : String} {layout : Layout} {ops : List Op} {old new : Position}
    (h : Moved source layout ops old new) (hops : ops ≠ []) : new ≠ old := by
  intro heq
  have hline := h.line
  have hpos := lineBreaks_pos hops layout.wrapped
  rw [heq] at hline
  omega

variable {config : Config} {source : String} {ts : List Token} {layout : Layout}
  {mnemonic operand : String} {p : Position}

section Splice

variable {rs : List Replacement} {inserted : String} {front block back as bs : List Lexeme}
  {l : Lexeme}

theorem eq_of_position_eq (s : Splice rs source ts layout inserted front block back) {t u : Token}
    (ht : t ∈ ts) (hu : u ∈ ts) (h : u.position = t.position) : u = t := by
  have hnodup := Token.nodup_position_placeAll s.tiles_source.size_pos 0 .start
  rw [← s.tokens] at hnodup
  exact List.inj_on_of_nodup_map hnodup hu ht h

/-- An operand in front of the anchor stands where the run says. -/
theorem exists_blamed_in_front
    (s : Splice rs source ts layout inserted (as ++ l :: bs) block back)
    (hblames : Blames mnemonic l.text as l) :
    ∃ before t after,
      Blamed source ts layout mnemonic l.text before t after (Position.start.after (chars as)) := by
  have hcut := s.tokens
  rw [List.append_assoc, List.cons_append, Token.placeAll_append_cons] at hcut
  refine ⟨_, _, _, hcut, by rwa [Token.map_toLexeme_placeAll], fun u hu => ?_, fun _ => rfl,
    fun hle => ?_⟩
  · exact eq_of_position_eq s (by rw [hcut]; simp) hu
  · have hl : 0 < byteSize l.text.toList := s.tiles_source.size_pos l (by simp)
    rw [s.anchor, chars_append, byteSize_append, chars_cons, byteSize_append] at hle
    simp only at hle
    omega

/-- An operand behind the anchor has been moved by the functions. -/
theorem exists_blamed_behind
    (s : Splice rs source ts layout inserted front block (as ++ l :: bs))
    (hbehind : ∀ p : Position, p.after inserted.toList =
      ⟨p.line + lineBreaks (Detection.scan ts).ops layout.wrapped, 1⟩)
    (hblames : Blames mnemonic l.text as l) :
    ∃ before t after, Blamed source ts layout mnemonic l.text before t after
      (((Position.start.after (chars front)).after inserted.toList).after (chars as)) := by
  have hcut := s.tokens
  rw [← List.append_assoc, Token.placeAll_append_cons] at hcut
  refine ⟨_, _, _, hcut, ?_, fun u hu => ?_, fun hlt => ?_, fun _ => ?_⟩
  · rw [Token.map_toLexeme_placeAll]
    exact hblames.append front
  · exact eq_of_position_eq s (by rw [hcut]; simp) hu
  · rw [s.anchor, chars_append, byteSize_append] at hlt
    simp only at hlt
    omega
  · have hchars := s.chars_eq
    rw [chars_append, chars_append] at hchars
    refine ⟨?_, chars front, chars as, chars (l :: bs), hchars.symm, s.anchor.symm, ?_, ?_⟩
    · simp only [hbehind, chars_append, Position.after_append, Position.line_after]
      omega
    · rw [chars_append]
    · rw [hbehind]

/-- What a splice refuses is refused for an operand of the module. -/
theorem exists_blamed_of_refused? (s : Splice rs source ts layout inserted front block back)
    (hne : rs ≠ [])
    (hbehind : ∀ p : Position, p.after inserted.toList =
      ⟨p.line + lineBreaks (Detection.scan ts).ops layout.wrapped, 1⟩)
    (h : Occurrence.refused? rs (Token.placeAll 0 .start (front ++ (block ++ back))) =
      some (.unsupportedOperand mnemonic operand p)) :
    ∃ before t after, Blamed source ts layout mnemonic operand before t after p := by
  rw [s.refused?_enlarged hne] at h
  cases Occurrence.blame rs front with
  | operand hsplit hblames hrefused =>
    subst hsplit
    rw [hrefused, Option.some_or] at h
    cases h
    exact exists_blamed_in_front s hblames
  | nothing hnone =>
    rw [hnone, Option.none_or] at h
    cases Occurrence.blame rs back with
    | nothing hnone' =>
      rw [hnone'] at h
      cases h
    | operand hsplit hblames hrefused =>
      subst hsplit
      rw [hrefused] at h
      cases h
      exact exists_blamed_behind s hbehind hblames

end Splice

/-- A run that refuses an instruction blames an operand of the module. -/
theorem exists_blamed (hconfig : config.check = .ok ())
    (hrun : run config source = .error (.unsupportedOperand mnemonic operand p)) :
    ∃ ts layout before t after, tokenize source = .ok ts ∧ Layout.ofTokens ts = .ok layout ∧
      (Detection.scan ts).ops ≠ [] ∧
        Blamed source ts layout mnemonic operand before t after p := by
  cases stage source with
  | idle hidle =>
    rw [run_of_detect?_eq_none hidle] at hrun
    cases hrun
  | lexemes hmay herror =>
    rw [run_of_tokenize_eq_error hmay herror] at hrun
    cases hrun
  | layout htokens hfound herror =>
    rw [run_of_ofTokens_eq_error htokens hfound herror] at hrun
    cases hrun
    have hstructural := Layout.isStructural_of_ofTokens herror
    cases hstructural
  | @replacement ts layout htokens hfound hlayout =>
    obtain ⟨front, block, back, hsplice⟩ := exists_splice hconfig htokens hlayout (Detection.scan ts)
    have hne : Replacement.forDetection (Detection.scan ts) config layout.functionNames ≠ [] :=
      functions_ne_nil hfound
    have hops := Replacement.map_op_forDetection (Detection.scan ts) config layout.functionNames
    rcases run_of_splice htokens hfound hlayout rfl hsplice with ⟨e, hrefused, herror⟩ | ⟨o, -, hok, -⟩
    · obtain rfl := Except.error.inj (hrun.symm.trans herror)
      obtain ⟨before, t, after, hblamed⟩ := exists_blamed_of_refused? hsplice hne
        (after_insertedText_forDetection hconfig hne layout.wrapped) hrefused
      refine ⟨ts, layout, before, t, after, htokens, hlayout, ?_, hblamed⟩
      rw [← hops]
      simpa using hne
    · rw [hrun] at hok
      cases hok

/-- A run that refuses an instruction for an operand has found both in the module: the operand is one
token of it, and the instruction stands in front with at most zeros between them. The place that the
run names is that of the operand exactly if the operand stands in front of the anchor. Behind it the
place is the one in the enlarged module. -/
theorem run_blames (hconfig : config.check = .ok ())
    (hrun : run config source = .error (.unsupportedOperand mnemonic operand p)) :
    ∃ ts layout before t after,
      tokenize source = .ok ts ∧ Layout.ofTokens ts = .ok layout ∧
        Blamed source ts layout mnemonic operand before t after p ∧
        (p = t.position ↔ t.start < layout.anchor) := by
  obtain ⟨ts, layout, before, t, after, htokens, hlayout, hops, hblamed⟩ := exists_blamed hconfig hrun
  refine ⟨ts, layout, before, t, after, htokens, hlayout, hblamed, fun hsame => ?_, hblamed.in_front⟩
  exact Nat.lt_of_not_le fun hle => (hblamed.behind hle).ne hops hsame

/-- The lexemes of a text with an instruction that names another memory. -/
def otherMemoryLexemes : List Lexeme :=
  [⟨.leftParen, "("⟩, ⟨.keyword, "memory.fill"⟩, ⟨.blank, " "⟩, ⟨.number, "1"⟩, ⟨.rightParen, ")"⟩]

theorem run_blames_fill :
    ∃ p, run {} "(memory.fill 1)" = .error (.unsupportedOperand "memory.fill" "1" p) ∧
      ∃ ts layout before t after,
        tokenize "(memory.fill 1)" = .ok ts ∧ Layout.ofTokens ts = .ok layout ∧
          Blamed "(memory.fill 1)" ts layout "memory.fill" "1" before t after p ∧
          (p = t.position ↔ t.start < layout.anchor) := by
  have hconfig : Config.check {} = .ok () := rfl
  have hlexemes : Lexer.run "(memory.fill 1)".toList = (otherMemoryLexemes, none) := by
    decide +kernel
  have htokens := tokenize.eq_def "(memory.fill 1)"
  rw [hlexemes] at htokens
  obtain ⟨e, hrun, he⟩ := exists_error hconfig htokens (by decide)
    (show _ = Except.ok ⟨15, false, []⟩ from rfl)
    (show _ = some (.unsupportedOperand "memory.fill" "1" ⟨1, 14⟩) from rfl)
  obtain ⟨p, rfl⟩ := eq_of_unplaced he
  exact ⟨p, hrun, run_blames hconfig hrun⟩

/-- An error for an operand points into a module if the operand stands where it says. -/
def Points (source mnemonic operand : String) (p : Position) : Prop :=
  ∃ ts before t after, tokenize source = .ok ts ∧ ts = before ++ t :: after ∧ t.position = p ∧
    Blames mnemonic operand (before.map Token.toLexeme) t.toLexeme

/-- Behind the anchor errors do not point into the module. -/
theorem not_run_points :
    ¬ ∀ config source mnemonic operand p, Config.check config = .ok () →
      run config source = .error (.unsupportedOperand mnemonic operand p) →
        Points source mnemonic operand p := by
  intro hpoints
  have hconfig : Config.check {} = .ok () := rfl
  have hlexemes : Lexer.run "(module)\n(memory.fill 1)".toList =
      ([⟨.leftParen, "("⟩, ⟨.keyword, "module"⟩, ⟨.rightParen, ")"⟩, ⟨.blank, "\n"⟩] ++
        otherMemoryLexemes, none) := by decide +kernel
  have htokens := tokenize.eq_def "(module)\n(memory.fill 1)"
  rw [hlexemes] at htokens
  obtain ⟨e, hrun, he⟩ := exists_error hconfig htokens (by decide)
    (show _ = Except.ok ⟨7, true, []⟩ from rfl)
    (show _ = some (.unsupportedOperand "memory.fill" "1" ⟨2, 14⟩) from rfl)
  obtain ⟨p, rfl⟩ := eq_of_unplaced he
  obtain ⟨ts, layout, before, t, after, htokens', hlayout, hops, hblamed⟩ := exists_blamed hconfig hrun
  obtain ⟨us, before', u, after', hus, hcut, hposition, -⟩ := hpoints {} _ _ _ p hconfig hrun
  obtain rfl := Except.ok.inj (htokens.symm.trans htokens')
  obtain rfl := Except.ok.inj (htokens.symm.trans hus)
  obtain rfl : (⟨7, true, []⟩ : Layout) = layout := Except.ok.inj hlayout
  -- the text has two lines, and the place that the error names is below them
  have htwo : ∀ t ∈ Token.placeAll 0 .start ([⟨.leftParen, "("⟩, ⟨.keyword, "module"⟩,
      ⟨.rightParen, ")"⟩, ⟨.blank, "\n"⟩] ++ otherMemoryLexemes),
      t.position.line ≤ 2 ∧ (t.text = "1" → t.start = 22 ∧ t.position.line = 2) := by decide
  obtain ⟨-, hplace⟩ := htwo t (by rw [hblamed.cut]; simp)
  obtain ⟨hstart, hline⟩ := hplace hblamed.blames.text
  have hmoved := (hblamed.behind (by rw [hstart]; decide)).line
  have hpos := lineBreaks_pos hops true
  have hle := (htwo u (by rw [hcut]; simp)).1
  rw [hposition] at hle
  simp only at hmoved
  omega

end Pass

end BulkMemory
