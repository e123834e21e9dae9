import BulkMemory.Proofs.Form.Fields
import BulkMemory.Proofs.Layout.Anchor
import BulkMemory.Proofs.Token.Depth

/-!
# The layout of a forest

The matching of parentheses succeeds on the lexemes of a forest and on nothing else
(`Layout.exists_forest`), and the layout is read off the forest: the anchor is at the end of the group
that takes new fields (`Layout.ofTokens_of_host`), and whether it lies inside the group depends on
whether there is a module form (`Layout.ofTokens_of_forest`).
-/

namespace BulkMemory
set_option autoImplicit false

namespace Layout

open Form Lexeme

/-! ### One token -/

variable {t : Token} {ts us : List Token} {opened : List Opening} {ends ends' : Ends}

theorem closeAll_cons_of_not_paren (h : t.isParen = false) :
    closeAll opened ends (t :: ts) = closeAll opened ends ts := by
  obtain ⟨hleft, hright⟩ : t.kind ≠ .leftParen ∧ t.kind ≠ .rightParen := by simpa [isParen] using h
  rw [closeAll.eq_def]
  dsimp only
  split
  · exact absurd ‹_› hleft
  · exact absurd ‹_› hright
  · rfl

theorem closeAll_cons_opening (h : t.kind = .leftParen) :
    closeAll opened ends (t :: ts) =
      closeAll (⟨t.position, ts.head?.any (·.isKeyword "module")⟩ :: opened) ends ts := by
  rw [closeAll.eq_def]
  simp only [h]

theorem closeAll_cons_closing_inner (h : t.kind = .rightParen) (inner outer : Opening) :
    closeAll (inner :: outer :: opened) ends (t :: ts) = closeAll (outer :: opened) ends ts := by
  rw [closeAll.eq_def]
  simp only [h]

theorem closeAll_cons_closing_outer (h : t.kind = .rightParen) (o : Opening) :
    closeAll [o] ends (t :: ts) =
      closeAll [] ⟨ends.module? <|> if o.isModule then some t.start else none, some t.stop⟩ ts := by
  rw [closeAll.eq_def]
  simp only [h]

/-! ### Matched parentheses make up a forest -/

/-- Up to its end, the rest of a text closes the groups that are open; between these closings, and
behind the last one, stand forests. -/
theorem exists_levels (h : closeAll opened ends ts = .ok ends')
    (hparens : ∀ t ∈ ts, (t.kind = .leftParen → t.toLexeme = opening) ∧
      (t.kind = .rightParen → t.toLexeme = closing)) :
    ∃ (here : List Form) (levels : List (List Form)), levels.length = opened.length ∧
      areProper here = true ∧ (∀ fs ∈ levels, areProper fs = true) ∧
      ts.map Token.toLexeme =
        lexemesAll here ++ levels.flatMap fun fs => closing :: lexemesAll fs := by
  fun_induction closeAll opened ends ts with
  | case1 | case4 => cases h
  | case2 opened ends hnone =>
    obtain rfl := List.getLast?_eq_none_iff.1 hnone
    exact ⟨[], [], rfl, rfl, by simp, rfl⟩
  | case3 opened ends t ts hkind ih =>
    obtain ⟨ht, hts⟩ := List.forall_mem_cons.1 hparens
    obtain ⟨here, levels, hlength, hhere, hlevels, heq⟩ := ih h hts
    obtain ⟨behind, levels, rfl⟩ := List.exists_cons_of_length_eq_add_one hlength
    obtain ⟨hbehind, hlevels⟩ := List.forall_mem_cons.1 hlevels
    refine ⟨group here :: behind, levels, by simpa using hlength, ?_, hlevels, ?_⟩
    · rw [areProper, isProper, hhere, hbehind]
      rfl
    · rw [List.map_cons, heq, ht.1 hkind]
      simp [lexemesAll, lexemes]
  | case5 ends t ts hkind o module? ih =>
    obtain ⟨ht, hts⟩ := List.forall_mem_cons.1 hparens
    obtain ⟨here, levels, hlength, hhere, hlevels, heq⟩ := ih h hts
    obtain rfl := List.eq_nil_of_length_eq_zero hlength
    refine ⟨[], [here], rfl, rfl, by simpa using hhere, ?_⟩
    rw [List.map_cons, heq, ht.2 hkind]
    simp
  | case6 ends t ts hkind inner o os ih =>
    obtain ⟨ht, hts⟩ := List.forall_mem_cons.1 hparens
    obtain ⟨here, levels, hlength, hhere, hlevels, heq⟩ := ih h hts
    refine ⟨[], here :: levels, by simpa using hlength, rfl,
      List.forall_mem_cons.2 ⟨hhere, hlevels⟩, ?_⟩
    rw [List.map_cons, heq, ht.2 hkind]
    rfl
  | case7 opened ends t ts hleft hright ih =>
    obtain ⟨here, levels, hlength, hhere, hlevels, heq⟩ := ih h (List.forall_mem_cons.1 hparens).2
    refine ⟨atom t.toLexeme :: here, levels, hlength, ?_, hlevels, ?_⟩
    · have hparen : t.isParen = false := by simpa [isParen] using ⟨hleft, hright⟩
      rw [areProper, isProper, hparen, hhere]
      rfl
    · rw [List.map_cons, heq]
      rfl

/-! ### The matching on a forest -/

/-- Inside a group a forest leaves no trace. -/
theorem closeAll_inside : (fs : List Form) → areProper fs = true → ∀ us : List Token,
    us.map Token.toLexeme = lexemesAll fs → ∀ o opened ends rest,
      closeAll (o :: opened) ends (us ++ rest) = closeAll (o :: opened) ends rest
  | [], _, us, hus, o, opened, ends, rest => by
    obtain rfl := List.map_eq_nil_iff.1 hus
    rfl
  | atom l :: fs, hfs, us, hus, o, opened, ends, rest => by
    rw [areProper, isProper, Bool.and_eq_true, Bool.not_eq_true'] at hfs
    obtain ⟨t, us, rfl, rfl, htail⟩ := List.map_eq_cons_iff.1 hus
    rw [List.cons_append, closeAll_cons_of_not_paren hfs.1]
    exact closeAll_inside fs hfs.2 us htail o opened ends rest
  | group items :: fs, hfs, us, hus, o, opened, ends, rest => by
    rw [areProper, isProper, Bool.and_eq_true] at hfs
    rw [lexemesAll, lexemes, List.cons_append, List.append_assoc] at hus
    obtain ⟨t, us, rfl, ht, hus⟩ := List.map_eq_cons_iff.1 hus
    obtain ⟨vs, us, rfl, hvs, hus⟩ := List.map_eq_append_iff.1 hus
    obtain ⟨c, us, rfl, hc, hus⟩ := List.map_eq_cons_iff.1 hus
    rw [List.cons_append, closeAll_cons_opening (congrArg Lexeme.kind ht), List.append_assoc,
      closeAll_inside items hfs.1 vs hvs, List.cons_append,
      closeAll_cons_closing_inner (congrArg Lexeme.kind hc)]
    exact closeAll_inside fs hfs.2 us hus o opened ends rest

/-- A group is a module if the keyword follows its parenthesis. -/
theorem any_isKeyword_head? {items : List Form} (h : us.map Token.toLexeme = lexemesAll items)
    {c : Token} (hc : c.toLexeme = closing) (rest : List Token) :
    (us ++ c :: rest).head?.any (·.isKeyword "module") = (group items).isModule := by
  cases items with
  | nil =>
    obtain rfl := List.map_eq_nil_iff.1 h
    exact congrArg (Lexeme.isKeyword · "module") hc
  | cons f fs =>
    cases f with
    | atom l =>
      obtain ⟨u, us, rfl, rfl, -⟩ := List.map_eq_cons_iff.1 h
      rfl
    | group inner =>
      rw [lexemesAll, lexemes, List.cons_append] at h
      obtain ⟨u, us, rfl, hu, -⟩ := List.map_eq_cons_iff.1 h
      exact congrArg (Lexeme.isKeyword · "module") hu

/-- At the top level a group is recorded when it closes. -/
theorem closeAll_group {items : List Form} (hitems : areProper items = true)
    {o c : Token} {vs : List Token} (ho : o.toLexeme = opening)
    (hvs : vs.map Token.toLexeme = lexemesAll items) (hc : c.toLexeme = closing) (ends : Ends)
    (rest : List Token) :
    closeAll [] ends (o :: (vs ++ c :: rest)) =
      closeAll [] ⟨ends.module? <|> if (group items).isModule then some c.start else none,
        some c.stop⟩ rest := by
  rw [closeAll_cons_opening (congrArg Lexeme.kind ho), any_isKeyword_head? hvs hc,
    closeAll_inside items hitems vs hvs,
    closeAll_cons_closing_outer (congrArg Lexeme.kind hc)]

/-- What the forms of the top level do to the ends: the first module form stays, and without a group
nothing changes. -/
structure Ends.Passes (ends : Ends) (fs : List Form) (ends' : Ends) : Prop where
  kept : ends.module?.isSome = true → ends'.module? = ends.module?
  no_module : fs.any isModule = false → ends'.module? = ends.module?
  no_group : fs.any isGroup = false → ends' = ends

theorem closeAll_top : (fs : List Form) → areProper fs = true → ∀ us : List Token,
    us.map Token.toLexeme = lexemesAll fs → ∀ ends, ∃ ends' : Ends, ends.Passes fs ends' ∧
      ∀ rest, closeAll [] ends (us ++ rest) = closeAll [] ends' rest
  | [], _, us, hus, ends => by
    obtain rfl := List.map_eq_nil_iff.1 hus
    exact ⟨ends, ⟨fun _ => rfl, fun _ => rfl, fun _ => rfl⟩, fun _ => rfl⟩
  | atom l :: fs, hfs, us, hus, ends => by
    rw [areProper, isProper, Bool.and_eq_true, Bool.not_eq_true'] at hfs
    obtain ⟨t, us, rfl, rfl, htail⟩ := List.map_eq_cons_iff.1 hus
    obtain ⟨ends', hpasses, hrest⟩ := closeAll_top fs hfs.2 us htail ends
    refine ⟨ends', ⟨hpasses.kept, hpasses.no_module, hpasses.no_group⟩, fun rest => ?_⟩
    rw [List.cons_append, closeAll_cons_of_not_paren hfs.1, hrest]
  | group items :: fs, hfs, us, hus, ends => by
    rw [areProper, isProper, Bool.and_eq_true] at hfs
    rw [lexemesAll, lexemes, List.cons_append, List.append_assoc] at hus
    obtain ⟨t, us, rfl, ht, hus⟩ := List.map_eq_cons_iff.1 hus
    obtain ⟨vs, us, rfl, hvs, hus⟩ := List.map_eq_append_iff.1 hus
    obtain ⟨c, us, rfl, hc, hus⟩ := List.map_eq_cons_iff.1 hus
    obtain ⟨ends', hpasses, hrest⟩ := closeAll_top fs hfs.2 us hus
      ⟨ends.module? <|> if (group items).isModule then some c.start else none, some c.stop⟩
    refine ⟨ends', ⟨fun hsome => ?_, fun hnone => ?_, fun hnone => by cases hnone⟩, fun rest => ?_⟩
    · obtain ⟨a, ha⟩ := Option.isSome_iff_exists.1 hsome
      simpa [ha] using hpasses.kept
    · rw [List.any_cons, Bool.or_eq_false_iff] at hnone
      simpa [hnone.1] using hpasses.no_module hnone.2
    · rw [List.cons_append, List.append_assoc, List.cons_append,
        closeAll_group hfs.1 ht hvs hc, hrest]

/-! ### The layout -/

/-- The tokens of a forest, around the parentheses of one of its groups. -/
structure Spells (ts : List Token) (before items behind : List Form) (us : List Token) (o : Token)
    (vs : List Token) (c : Token) (ws : List Token) : Prop where
  tokens : Token.significant ts = us ++ o :: (vs ++ c :: ws)
  proper : areProper (before ++ group items :: behind) = true
  before_group : us.map Token.toLexeme = lexemesAll before
  opens : o.toLexeme = opening
  items : vs.map Token.toLexeme = lexemesAll items
  closes : c.toLexeme = closing
  behind_group : ws.map Token.toLexeme = lexemesAll behind

theorem exists_spells {before items behind : List Form}
    (hproper : areProper (before ++ group items :: behind) = true)
    (h : Token.meaning ts = lexemesAll (before ++ group items :: behind)) :
    ∃ us o vs c ws, Spells ts before items behind us o vs c ws := by
  rw [Token.meaning, lexemesAll_append, lexemesAll, lexemes, List.cons_append,
    List.append_assoc] at h
  obtain ⟨us, rest, htokens, hus, hrest⟩ := List.map_eq_append_iff.1 h
  obtain ⟨o, rest, rfl, ho, hrest⟩ := List.map_eq_cons_iff.1 hrest
  obtain ⟨vs, rest, rfl, hvs, hrest⟩ := List.map_eq_append_iff.1 hrest
  obtain ⟨c, ws, rfl, hc, hws⟩ := List.map_eq_cons_iff.1 hrest
  exact ⟨us, o, vs, c, ws, htokens, hproper, hus, ho, hvs, hc, hws⟩

variable {before items behind : List Form} {vs ws : List Token} {o c : Token}

theorem Spells.proper_parts (h : Spells ts before items behind us o vs c ws) :
    areProper before = true ∧ areProper items = true ∧ areProper behind = true := by
  simpa [areProper, isProper] using h.proper

theorem Spells.meaning_eq (h : Spells ts before items behind us o vs c ws) :
    Token.meaning ts = lexemesAll (before ++ group items :: behind) := by
  rw [Token.meaning, h.tokens]
  simp [lexemesAll, lexemes, h.before_group, h.opens, h.items, h.closes, h.behind_group]

/-- The anchor is at the end of the group that takes new fields. -/
theorem ofTokens_of_host {wrapped : Bool} (hhosts : Hosts wrapped before items behind)
    (h : Spells ts before items behind us o vs c ws) :
    ofTokens ts = .ok ⟨if wrapped then c.start else c.stop, wrapped,
      (namedFunctions (Token.significant ts)).eraseDups⟩ := by
  obtain ⟨hbefore, hitems, hbehind⟩ := h.proper_parts
  obtain ⟨ends, hpasses, hus⟩ := closeAll_top before hbefore us h.before_group {}
  obtain ⟨ends', hpasses', hws⟩ := closeAll_top behind hbehind ws h.behind_group
    ⟨ends.module? <|> if (group items).isModule then some c.start else none, some c.stop⟩
  have hclose : closeAll [] {} (Token.significant ts) = .ok ends' := by
    have hend := hws []
    rw [List.append_nil] at hend
    rw [h.tokens, hus, closeAll_group hitems h.opens h.items h.closes, hend]
    rfl
  have hany : (Token.significant ts).any (·.kind == .rightParen) = true := by
    rw [h.tokens]
    exact List.any_eq_true.2 ⟨c, by simp, by rw [h.closes]; rfl⟩
  rw [ofTokens, hany]
  change (closeAll [] {} (Token.significant ts) >>= _) = _
  rw [hclose]
  cases hhosts with
  | inModule hnone hmodule =>
    have hfirst : ends'.module? = some c.start := by
      rw [hpasses'.kept] <;> simp [hpasses.no_module hnone, hmodule]
    obtain ⟨module?, last?⟩ := ends'
    obtain rfl : module? = some c.start := hfirst
    rfl
  | behindLast hnone hlast =>
    rw [List.any_append, List.any_cons, Bool.or_eq_false_iff, Bool.or_eq_false_iff] at hnone
    have hmodule : ends.module? = none := hpasses.no_module hnone.1
    obtain rfl := hpasses'.no_group hlast
    rw [hmodule, hnone.2.1]
    rfl

/-- The functions that a layout names are those with a header. -/
theorem functionNames_of_ofTokens {layout : Layout} (h : ofTokens ts = .ok layout) :
    layout.functionNames = (namedFunctions (Token.significant ts)).eraseDups := by
  rw [ofTokens] at h
  split at h
  · cases h
  · cases hends : closeAll [] {} (Token.significant ts) with
    | error e => rw [hends] at h; cases h
    | ok ends =>
      rw [hends] at h
      obtain ⟨module?, last?⟩ := ends
      cases module? with
      | some offset =>
        cases h
        rfl
      | none =>
        cases last? with
        | some offset =>
          cases h
          rfl
        | none => cases h

/-- A forest with a group has a layout. -/
theorem ofTokens_of_forest {forest : List Form} (hproper : areProper forest = true)
    (h : Token.meaning ts = lexemesAll forest) (hgroup : forest.any isGroup = true) :
    ∃ layout, ofTokens ts = .ok layout ∧ layout.wrapped = forest.any isModule := by
  obtain ⟨wrapped, before, items, behind, rfl, hhosts⟩ := exists_hosts hgroup
  obtain ⟨us, o, vs, c, ws, hspells⟩ := exists_spells hproper h
  exact ⟨_, ofTokens_of_host hhosts hspells, hhosts.wrapped_eq⟩

/-- In a text every parenthesis is written in the one way there is. -/
theorem parens_placeAll {ls : List Lexeme} {rest : List Char} (h : Tiles ls rest) (start : Nat)
    (position : Position) : ∀ t ∈ Token.significant (Token.placeAll start position ls),
      (t.kind = .leftParen → t.toLexeme = opening) ∧
        (t.kind = .rightParen → t.toLexeme = closing) := by
  intro t ht
  have hmem : t.toLexeme ∈ (Token.placeAll start position ls).map Token.toLexeme :=
    List.mem_map_of_mem (List.mem_filter.1 ht).1
  rw [Token.map_toLexeme_placeAll] at hmem
  obtain ⟨_, hstands⟩ := h.exists_stands _ hmem
  exact hstands.parens

/-- A module with a layout is a forest, and the layout is that of the forest. -/
theorem exists_host {layout : Layout}
    (hparens : ∀ t ∈ Token.significant ts, (t.kind = .leftParen → t.toLexeme = opening) ∧
      (t.kind = .rightParen → t.toLexeme = closing))
    (h : ofTokens ts = .ok layout) :
    ∃ before items behind us o vs c ws, Hosts layout.wrapped before items behind ∧
      Spells ts before items behind us o vs c ws ∧
      layout.anchor = if layout.wrapped then c.start else c.stop := by
  obtain ⟨ends, hends, hsome⟩ : ∃ ends, closeAll [] {} (Token.significant ts) = .ok ends ∧
      ends ≠ {} := by
    rw [ofTokens] at h
    split at h
    · cases h
    · cases hends : closeAll [] {} (Token.significant ts) with
      | error e => rw [hends] at h; cases h
      | ok ends =>
        refine ⟨ends, rfl, ?_⟩
        rintro rfl
        rw [hends] at h
        cases h
  obtain ⟨forest, levels, hlength, hproper, -, hforest⟩ := exists_levels hends hparens
  obtain rfl := List.eq_nil_of_length_eq_zero hlength
  rw [List.flatMap_nil, List.append_nil] at hforest
  have hgroup : forest.any isGroup = true := by
    obtain ⟨ends', hpasses, hrest⟩ := closeAll_top forest hproper _ hforest {}
    have hend := hrest []
    rw [List.append_nil, hends] at hend
    obtain rfl : ends = ends' := Except.ok.inj hend
    exact eq_true_of_ne_false fun hnone => hsome (hpasses.no_group hnone)
  obtain ⟨wrapped, before, items, behind, rfl, hhosts⟩ := exists_hosts hgroup
  obtain ⟨us, o, vs, c, ws, hspells⟩ := exists_spells hproper hforest
  rw [ofTokens_of_host hhosts hspells] at h
  cases h
  exact ⟨before, items, behind, us, o, vs, c, ws, hhosts, hspells, rfl⟩

/-- The anchor cuts a module in front of the parenthesis that closes its module form, or behind its
last group. -/
theorem significant_parts {wrapped : Bool} {front back : List Lexeme}
    (hsize : ∀ l ∈ front ++ back, 0 < l.size)
    (h : Spells (Token.placeAll 0 .start (front ++ back)) before items behind us o vs c ws)
    (hanchor : byteSize (chars front) = if wrapped then c.start else c.stop) :
    (wrapped = true → significant front = lexemesAll before ++ opening :: lexemesAll items ∧
      significant back = closing :: lexemesAll behind) ∧
    (wrapped = false → significant front = lexemesAll (before ++ [group items]) ∧
      significant back = lexemesAll behind) := by
  have hsub : (Token.significant (Token.placeAll 0 .start (front ++ back))).Sublist
      (Token.placeAll 0 .start (front ++ back)) := List.filter_sublist
  have hplaced (t : Token) (ht : t ∈ us ++ o :: (vs ++ c :: ws)) : t.start < t.stop := by
    rw [← h.tokens] at ht
    exact Token.start_lt_stop_of_mem_placeAll hsize t (hsub.subset ht)
  have hordered := (Token.pairwise_placeAll 0 .start (front ++ back)).sublist hsub
  have hregroup : us ++ o :: (vs ++ c :: ws) = (us ++ o :: vs) ++ c :: ws := by simp
  rw [h.tokens, hregroup, List.pairwise_append, List.pairwise_cons] at hordered
  obtain ⟨-, ⟨hws, -⟩, hus⟩ := hordered
  have hc : c.start < c.stop := hplaced c (by simp)
  have hfront (t : Token) (ht : t ∈ us ++ o :: vs) : t.stop ≤ c.start := hus t ht c List.mem_cons_self
  have hback (t : Token) (ht : t ∈ ws) : c.stop < t.stop :=
    Nat.lt_of_le_of_lt (hws t ht) (hplaced t (by simp [ht]))
  constructor
  · rintro rfl
    have hcut := Token.significant_of_append hsize (h.tokens.trans hregroup)
      (fun t ht => by rw [hanchor]; exact hfront t ht)
      (List.forall_mem_cons.2 ⟨by rw [hanchor]; exact hc, fun t ht => by
        rw [hanchor]; exact Nat.lt_trans hc (hback t ht)⟩)
    simpa [h.before_group, h.opens, h.items, h.closes, h.behind_group] using hcut
  · rintro rfl
    have hregroup' : us ++ o :: (vs ++ c :: ws) = ((us ++ o :: vs) ++ [c]) ++ ws := by simp
    have hfront' (t : Token) (ht : t ∈ (us ++ o :: vs) ++ [c]) : t.stop ≤ c.stop := by
      rcases List.mem_append.1 ht with ht | ht
      · exact Nat.le_trans (hfront t ht) (Nat.le_of_lt hc)
      · obtain rfl := List.mem_singleton.1 ht
        exact Nat.le_refl _
    have hcut := Token.significant_of_append hsize (h.tokens.trans hregroup')
      (fun t ht => by rw [hanchor]; exact hfront' t ht)
      (fun t ht => by rw [hanchor]; exact hback t ht)
    simpa [h.before_group, h.opens, h.items, h.closes, h.behind_group, lexemesAll, lexemes]
      using hcut

end Layout

end BulkMemory
