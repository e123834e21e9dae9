import BulkMemory.Proofs.Occurrence.Indices
import BulkMemory.Proofs.Token.Tiling

/-!
# What an exchange does to a text

`Occurrence.allIn` lists the instructions of a text with the indices they take, and
`Occurrence.refused?` is the first fault among them; together they are all that the search for
occurrences finds (`inTokens_eq`). `Lexeme.exchanged` says on lexemes what the edits do to the text,
so that `exchangeAll_eq` describes an exchange without offsets.
-/

namespace BulkMemory
set_option autoImplicit false

variable {rs : List Replacement}

/-- The replacement for a lexeme, if it is an instruction that has one. -/
def Lexeme.replacement? (rs : List Replacement) (l : Lexeme) : Option Replacement :=
  if l.kind = .keyword then rs.find? fun r => l.text == r.op.mnemonic else none

namespace Occurrence

/-- The instructions that have a replacement, each up to the last index that it takes. -/
def allIn (rs : List Replacement) : List Token → List Occurrence
  | [] => []
  | t :: ts =>
    match t.replacement? rs with
    | none => allIn rs ts
    | some r =>
      let taken := takenIndices Token.toLexeme r.op.indexCount (Token.significant ts)
      ⟨r.op, ⟨t.start, (taken.getLast?.map Token.stop).getD t.stop⟩, r.target⟩ :: allIn rs ts

/-- The error for the first instruction that cannot be replaced. -/
def refused? (rs : List Replacement) : List Token → Option PassError
  | [] => none
  | t :: ts =>
    match t.replacement? rs with
    | none => refused? rs ts
    | some r =>
      match refusedIndex? Token.toLexeme r.op.indexCount (Token.significant ts) with
      | some u => some (.unsupportedOperand r.op.mnemonic u.text u.position)
      | none => refused? rs ts

variable {t : Token} {ts : List Token} {r : Replacement}

theorem allIn_cons_of_none (h : t.replacement? rs = none) : allIn rs (t :: ts) = allIn rs ts := by
  rw [allIn, h]

theorem refused?_cons_of_none (h : t.replacement? rs = none) :
    refused? rs (t :: ts) = refused? rs ts := by
  rw [refused?, h]

theorem allIn_cons_of_some (h : t.replacement? rs = some r) :
    allIn rs (t :: ts) =
      ⟨r.op, ⟨t.start, ((takenIndices Token.toLexeme r.op.indexCount
        (Token.significant ts)).getLast?.map Token.stop).getD t.stop⟩, r.target⟩ :: allIn rs ts := by
  rw [allIn, h]

theorem refused?_cons_of_some (h : t.replacement? rs = some r) :
    refused? rs (t :: ts) =
      match refusedIndex? Token.toLexeme r.op.indexCount (Token.significant ts) with
      | some u => some (.unsupportedOperand r.op.mnemonic u.text u.position)
      | none => refused? rs ts := by
  rw [refused?, h]

theorem allIn_append_of_none (h : ∀ t ∈ ts, t.replacement? rs = none) (us : List Token) :
    allIn rs (ts ++ us) = allIn rs us := by
  induction ts with
  | nil => rfl
  | cons t ts ih =>
    rw [List.cons_append, allIn_cons_of_none (h t List.mem_cons_self)]
    exact ih fun u hu => h u (List.mem_cons_of_mem t hu)

theorem refused?_append_of_none (h : ∀ t ∈ ts, t.replacement? rs = none) (us : List Token) :
    refused? rs (ts ++ us) = refused? rs us := by
  induction ts with
  | nil => rfl
  | cons t ts ih =>
    rw [List.cons_append, refused?_cons_of_none (h t List.mem_cons_self)]
    exact ih fun u hu => h u (List.mem_cons_of_mem t hu)

end Occurrence

theorem Lexeme.replacement?_of_not_keyword {l : Lexeme} (h : l.kind ≠ .keyword) :
    l.replacement? rs = none := if_neg h

/-- No instruction stands in a gap. -/
theorem IsGap.replacement?_eq_none {α : Type} {view : α → Lexeme} {count : Nat} {gap : List α}
    (h : IsGap view count gap) : ∀ x ∈ gap, (view x).replacement? rs = none := by
  intro x hx
  apply Lexeme.replacement?_of_not_keyword
  intro hkind
  have hzero := h.zeros x (List.mem_filter.2 ⟨hx, by simp [Lexeme.isTrivia, hkind, Kind.isTrivia]⟩)
  simp [Lexeme.isZero, hkind] at hzero

/-- A gap remains one when its lexemes get places. -/
theorem IsGap.placeAll {count : Nat} {gap : List Lexeme} (h : IsGap id count gap) (start : Nat)
    (position : Position) : IsGap Token.toLexeme count (Token.placeAll start position gap) := by
  have hmap := meaningful_map id Token.toLexeme (Token.placeAll start position gap)
  rw [Token.map_toLexeme_placeAll] at hmap
  refine ⟨fun t ht => ?_, ?_, fun t ht => ?_⟩
  · exact h.zeros t.toLexeme (hmap ▸ List.mem_map_of_mem ht)
  · rw [← h.length, hmap, List.length_map]
    rfl
  · apply h.last t.toLexeme
    rw [← Token.map_toLexeme_placeAll start position gap, List.getLast?_map]
    exact Option.mem_map_of_mem _ ht

namespace Occurrence

variable {ts : List Token}

/-- The search for occurrences finds all of them or the first fault. -/
theorem inTokens_eq (rs : List Replacement) (ts : List Token) :
    inTokens rs ts =
      match refused? rs ts with
      | some e => .error e
      | none => .ok (allIn rs ts) := by
  fun_induction inTokens rs ts with
  | case1 => rfl
  | case2 t ts hnone ih => rw [ih, refused?_cons_of_none hnone, allIn_cons_of_none hnone]
  | case3 t ts r hsome hread ih =>
    obtain ⟨hsplit, hrefused⟩ := Indices.of_read_omitted hread
    have htaken : takenIndices Token.toLexeme r.op.indexCount (Token.significant ts) = [] :=
      takenIndices_of_splitTaken hsplit
    rw [ih, refused?_cons_of_some hsome, allIn_cons_of_some hsome, hrefused, htaken]
    cases refused? rs ts <;> rfl
  | case4 t ts r hsome stop rest hread ih =>
    obtain ⟨gap, hsplit, rfl⟩ := Indices.of_read_zeros hread
    have hgap := isGap_of_splitTaken hsplit
    obtain rfl := eq_append_of_splitTaken hsplit
    have htaken : takenIndices Token.toLexeme r.op.indexCount (Token.significant (gap ++ rest)) =
      meaningful Token.toLexeme gap := hgap.takenIndices_eq rest
    have hrefused : refusedIndex? Token.toLexeme r.op.indexCount (Token.significant (gap ++ rest)) =
      none := hgap.refusedIndex?_eq rest
    rw [ih, refused?_cons_of_some hsome, allIn_cons_of_some hsome, hrefused, htaken,
      hgap.getLast?_meaningful, refused?_append_of_none hgap.replacement?_eq_none,
      allIn_append_of_none hgap.replacement?_eq_none]
    cases refused? rs rest <;> rfl
  | case5 t ts r hsome u hread =>
    rw [refused?_cons_of_some hsome, Indices.of_read_unsupported hread]

/-! ### Only what carries meaning matters -/

theorem replacement?_of_trivia {l : Lexeme} (h : l.isTrivia = true) : l.replacement? rs = none := by
  apply Lexeme.replacement?_of_not_keyword
  intro hkind
  simp [Lexeme.isTrivia, hkind, Kind.isTrivia] at h

theorem allIn_significant (rs : List Replacement) (ts : List Token) :
    allIn rs (Token.significant ts) = allIn rs ts := by
  induction ts with
  | nil => rfl
  | cons t ts ih =>
    cases htrivia : t.isTrivia with
    | true =>
      rw [Token.significant_cons_of_trivia htrivia, ih,
        allIn_cons_of_none (replacement?_of_trivia htrivia)]
    | false =>
      rw [Token.significant_cons_of_not_trivia htrivia]
      cases hr : t.replacement? rs with
      | none => rw [allIn_cons_of_none hr, allIn_cons_of_none hr, ih]
      | some r => rw [allIn_cons_of_some hr, allIn_cons_of_some hr, ih, Token.significant_significant]

theorem refused?_significant (rs : List Replacement) (ts : List Token) :
    refused? rs (Token.significant ts) = refused? rs ts := by
  induction ts with
  | nil => rfl
  | cons t ts ih =>
    cases htrivia : t.isTrivia with
    | true =>
      rw [Token.significant_cons_of_trivia htrivia, ih,
        refused?_cons_of_none (replacement?_of_trivia htrivia)]
    | false =>
      rw [Token.significant_cons_of_not_trivia htrivia]
      cases hr : t.replacement? rs with
      | none => rw [refused?_cons_of_none hr, refused?_cons_of_none hr, ih]
      | some r =>
        rw [refused?_cons_of_some hr, refused?_cons_of_some hr, ih, Token.significant_significant]

end Occurrence

/-! ### The text after an exchange -/

namespace Lexeme

/-- A call of a replacement. -/
def call (r : Replacement) : List Lexeme := [⟨.keyword, "call"⟩, ⟨.blank, " "⟩, ⟨.id, r.target⟩]

/-- What follows the indices that an instruction takes. -/
def behindIndices (op : Op) (ls : List Lexeme) : List Lexeme :=
  ((splitTaken id op.indexCount ls).map Prod.snd).getD ls

theorem length_behindIndices_le (op : Op) (ls : List Lexeme) :
    (behindIndices op ls).length ≤ ls.length := by
  rw [behindIndices]
  cases hsplit : splitTaken id op.indexCount ls with
  | none => exact Nat.le_refl _
  | some split =>
    obtain ⟨gap, rest⟩ := split
    rw [eq_append_of_splitTaken hsplit, List.length_append]
    exact Nat.le_add_left _ _

/-- The lexemes after an exchange: each instruction that has a replacement has become a call, and
the indices that it takes are gone, with the trivia in front of each. -/
def exchanged (rs : List Replacement) : List Lexeme → List Lexeme
  | [] => []
  | l :: ls =>
    match l.replacement? rs with
    | none => l :: exchanged rs ls
    | some r => call r ++ exchanged rs (behindIndices r.op ls)
termination_by ls => ls.length
decreasing_by
  · simp
  · exact Nat.lt_succ_of_le (length_behindIndices_le _ _)

theorem exchanged_cons_of_none {l : Lexeme} {ls : List Lexeme} (h : l.replacement? rs = none) :
    exchanged rs (l :: ls) = l :: exchanged rs ls := by
  rw [exchanged, h]

theorem exchanged_cons_of_some {l : Lexeme} {ls : List Lexeme} {r : Replacement}
    (h : l.replacement? rs = some r) :
    exchanged rs (l :: ls) = call r ++ exchanged rs (behindIndices r.op ls) := by
  rw [exchanged, h]

theorem chars_call (r : Replacement) : chars (call r) = ("call " ++ r.target).toList := by
  simp [call]

/-- The indices that an instruction takes with the trivia in front of each, and what follows them,
make up what follows the instruction. -/
theorem exists_gap (op : Op) (ls : List Lexeme) :
    ∃ gap, ls = gap ++ behindIndices op ls ∧ IsGap id (significant gap).length gap ∧
      takenIndices id op.indexCount (significant ls) = significant gap ∧
      ∀ start position, takenIndices Token.toLexeme op.indexCount
        (Token.significant (Token.placeAll start position ls)) =
          meaningful Token.toLexeme (Token.placeAll start position gap) := by
  cases hsplit : splitTaken id op.indexCount ls with
  | none =>
    have htaken : takenIndices id op.indexCount (significant ls) = [] :=
      takenIndices_of_splitTaken hsplit
    refine ⟨[], by rw [behindIndices, hsplit]; rfl, ⟨by simp [meaningful], rfl, by simp⟩, htaken,
      fun start position => ?_⟩
    rw [← Token.map_significant_placeAll start position, takenIndices_map] at htaken
    exact List.map_eq_nil_iff.1 htaken
  | some split =>
    obtain ⟨gap, rest⟩ := split
    have hgap := isGap_of_splitTaken hsplit
    have happend := eq_append_of_splitTaken hsplit
    refine ⟨gap, by rw [behindIndices, hsplit]; exact happend, ?_, ?_, fun start position => ?_⟩
    · have hlength : (significant gap).length = op.indexCount := hgap.length
      rwa [hlength]
    · rw [happend]
      exact hgap.takenIndices_eq rest
    · rw [happend, Token.placeAll_append]
      exact (hgap.placeAll start position).takenIndices_eq _

end Lexeme

namespace Occurrence

open Lexeme

/-- What is known of an instruction that was found: where it begins and ends, and what is called in
its place. -/
theorem exists_of_mem_allIn {ts : List Token} {o : Occurrence} (h : o ∈ allIn rs ts) :
    ∃ t ∈ ts, ∃ last ∈ ts, ∃ r, t.replacement? rs = some r ∧
      o = ⟨r.op, ⟨t.start, last.stop⟩, r.target⟩ := by
  induction ts with
  | nil => cases h
  | cons t ts ih =>
    have hlater (h : o ∈ allIn rs ts) : ∃ u ∈ t :: ts, ∃ last ∈ t :: ts, ∃ r,
        u.replacement? rs = some r ∧ o = ⟨r.op, ⟨u.start, last.stop⟩, r.target⟩ := by
      obtain ⟨u, hu, last, hlast, r, hr⟩ := ih h
      exact ⟨u, List.mem_cons_of_mem t hu, last, List.mem_cons_of_mem t hlast, r, hr⟩
    cases hr : t.replacement? rs with
    | none => exact hlater (by rwa [allIn_cons_of_none hr] at h)
    | some r =>
      rw [allIn_cons_of_some hr] at h
      rcases List.mem_cons.1 h with rfl | h
      · cases htaken : (takenIndices Token.toLexeme r.op.indexCount
          (Token.significant ts)).getLast? with
        | none => exact ⟨t, List.mem_cons_self, t, List.mem_cons_self, r, hr, rfl⟩
        | some last =>
          have hmem : last ∈ ts := (List.mem_filter.1
            (mem_of_mem_takenIndices (List.mem_of_getLast? htaken))).1
          exact ⟨t, List.mem_cons_self, last, List.mem_cons_of_mem t hmem, r, hr, rfl⟩
      · exact hlater h

/-- The instructions found in a run of lexemes lie within it. -/
theorem within_of_mem_allIn {start : Nat} {position : Position} {ls : List Lexeme} {o : Occurrence}
    (h : o ∈ allIn rs (Token.placeAll start position ls)) :
    start ≤ o.span.start ∧ o.span.stop ≤ start + byteSize (chars ls) := by
  obtain ⟨t, ht, last, hlast, r, -, rfl⟩ := exists_of_mem_allIn h
  exact ⟨(Token.within_of_mem_placeAll ht).1, (Token.within_of_mem_placeAll hlast).2⟩

/-- An instruction in front of other lexemes is found with the gap of indices that it takes, and the
search goes on behind the gap. -/
theorem allIn_placeAll_of_some {l : Lexeme} {r : Replacement} (h : l.replacement? rs = some r)
    (ls : List Lexeme) :
    ∃ gap, ls = gap ++ behindIndices r.op ls ∧ ∀ start position,
      allIn rs (Token.placeAll start position (l :: ls)) =
        ⟨r.op, ⟨start, start + byteSize (l.text.toList ++ chars gap)⟩, r.target⟩ ::
          allIn rs (Token.placeAll (start + byteSize (l.text.toList ++ chars gap))
            (position.after (l.text.toList ++ chars gap)) (behindIndices r.op ls)) := by
  obtain ⟨gap, happend, hgap, -, htaken⟩ := exists_gap r.op ls
  refine ⟨gap, happend, fun start position => ?_⟩
  have hsize : start + l.size + byteSize (chars gap) =
      start + byteSize (l.text.toList ++ chars gap) := by
    rw [byteSize_append, ← Nat.add_assoc]
    rfl
  have hplaced := hgap.placeAll (start + l.size) (position.after l.text.toList)
  have htokens : Token.placeAll (start + l.size) (position.after l.text.toList) ls =
      Token.placeAll (start + l.size) (position.after l.text.toList) gap ++
        Token.placeAll (start + byteSize (l.text.toList ++ chars gap))
          (position.after (l.text.toList ++ chars gap)) (behindIndices r.op ls) := by
    rw [← hsize, Position.after_append, ← Token.placeAll_append, ← happend]
  have hstop : ((Token.placeAll (start + l.size) (position.after l.text.toList) gap).getLast?.map
      Token.stop).getD (start + l.size) = start + byteSize (l.text.toList ++ chars gap) := by
    rw [Token.stop_getLast?_placeAll, hsize]
  rw [Token.placeAll, allIn_cons_of_some h, htaken, hplaced.getLast?_meaningful, htokens,
    allIn_append_of_none hplaced.replacement?_eq_none]
  exact congrArg (fun stop => (⟨r.op, ⟨start, stop⟩, r.target⟩ : Occurrence) :: _) hstop

/-- The edits for the instructions in a run of lexemes exchange these and leave what follows. -/
theorem applyFrom?_allIn (rs : List Replacement) (ls : List Lexeme) :
    ∀ start position es rest, (∀ e ∈ es, start + byteSize (chars ls) ≤ e.span.start) →
      Edit.applyFrom? start
          ((allIn rs (Token.placeAll start position ls)).map Occurrence.edit ++ es)
          (chars ls ++ rest) =
        (Edit.applyFrom? (start + byteSize (chars ls)) es rest).map
          fun after => chars (exchanged rs ls) ++ after := by
  fun_induction exchanged rs ls with
  | case1 =>
    intro start position es rest hes
    simp [allIn]
  | case2 l ls hnone ih =>
    intro start position es rest hes
    rw [add_byteSize_chars_cons] at hes ⊢
    rw [Token.placeAll, allIn_cons_of_none hnone, chars_cons, List.append_assoc,
      Edit.applyFrom?_append]
    · have hrest := ih (start + l.size) (position.after l.text.toList) es rest hes
      change (Edit.applyFrom? (start + l.size) _ _).map _ = _
      rw [hrest, Option.map_map]
      simp [Function.comp_def]
    · intro e he
      rcases List.mem_append.1 he with he | he
      · obtain ⟨o, ho, rfl⟩ := List.mem_map.1 he
        exact (within_of_mem_allIn ho).1
      · exact Nat.le_of_add_right_le (hes e he)
  | case3 l ls r hsome ih =>
    intro start position es rest hes
    obtain ⟨gap, happend, hfound⟩ := allIn_placeAll_of_some hsome ls
    have hchars : chars (l :: ls) =
        (l.text.toList ++ chars gap) ++ chars (behindIndices r.op ls) := by
      rw [chars_cons, List.append_assoc, ← chars_append, ← happend]
    have hsize : start + byteSize (chars (l :: ls)) =
        start + byteSize (l.text.toList ++ chars gap) + byteSize (chars (behindIndices r.op ls)) := by
      rw [hchars, byteSize_append _ (chars (behindIndices r.op ls)), Nat.add_assoc]
    rw [hsize] at hes ⊢
    have hrest := ih (start + byteSize (l.text.toList ++ chars gap))
      (position.after (l.text.toList ++ chars gap)) es rest hes
    rw [hfound, hchars, List.append_assoc]
    change Edit.applyFrom? start ((⟨⟨start, start + byteSize (l.text.toList ++ chars gap)⟩,
      "call " ++ r.target⟩ : Edit) :: (_ ++ es)) _ = _
    rw [Edit.applyFrom?_cons, hrest, Option.map_map]
    simp [Function.comp_def, chars_call]

theorem exchangeAll_of_inTokens {source output : String} {ts : List Token}
    {found : List Occurrence} (htokens : tokenize source = .ok ts)
    (hfound : inTokens rs ts = .ok found)
    (hedits : Edit.applyAll? (found.map Occurrence.edit) source = some output) :
    exchangeAll source rs =
      .ok ⟨output, found.countP (·.op = .copy), found.countP (·.op = .fill)⟩ := by
  rw [exchangeAll, htokens]
  change (inTokens rs ts >>= _) = _
  rw [hfound]
  change (pure found >>= _) = _
  rw [pure_bind, hedits]
  rfl

/-- What an exchange does to a text that lexemes tile. -/
theorem exchangeAll_eq (rs : List Replacement) {ls : List Lexeme} (h : Tiles ls []) :
    exchangeAll (String.ofList (chars ls)) rs =
      match refused? rs (Token.placeAll 0 .start ls) with
      | some e => .error e
      | none => .ok ⟨String.ofList (chars (exchanged rs ls)),
          (allIn rs (Token.placeAll 0 .start ls)).countP (·.op = .copy),
          (allIn rs (Token.placeAll 0 .start ls)).countP (·.op = .fill)⟩ := by
  obtain ⟨ts, htokens, hsame⟩ := tokenize_of_tiles h
  have hall : allIn rs ts = allIn rs (Token.placeAll 0 .start ls) := by
    rw [← allIn_significant, hsame, allIn_significant]
  have hrefused : refused? rs ts = refused? rs (Token.placeAll 0 .start ls) := by
    rw [← refused?_significant, hsame, refused?_significant]
  have hedits := applyFrom?_allIn rs ls 0 .start [] [] (by simp)
  simp only [List.append_nil, Edit.applyFrom?_nil, Option.map_some] at hedits
  have hfound := inTokens_eq rs ts
  rw [hall, hrefused] at hfound
  cases hfault : refused? rs (Token.placeAll 0 .start ls) with
  | some e =>
    rw [hfault] at hfound
    rw [exchangeAll, htokens]
    change (inTokens rs ts >>= _) = _
    rw [hfound]
    rfl
  | none =>
    rw [hfault] at hfound
    refine exchangeAll_of_inTokens htokens hfound ?_
    rw [Edit.applyAll?, String.toList_ofList, hedits]
    rfl

end Occurrence

end BulkMemory
