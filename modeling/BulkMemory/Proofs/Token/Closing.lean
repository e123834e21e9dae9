import BulkMemory.Token.Grammar

/-!
# Where comments and strings end

A block comment is the shortest text with an opening at its front in which openings and ends balance
(`Lexeme.IsBlockComment`), and a string goes up to the first quote that no unpaired backslash
precedes (`Lexeme.IsString`). Both are said without reading the text step by step.
`Lexeme.isBlockComment_cons_iff` and `Lexeme.isString_cons_iff` find in them what the grammar of
lexemes says about the rest of a comment and of a string.
-/

namespace BulkMemory.Lexeme
set_option autoImplicit false

/-! ### Block comments -/

/-- How many more comments a text opens than it ends. Openings and ends are counted from left to right
and do not share characters. -/
def commentBalance : List Char → Int
  | [] => 0
  | '(' :: ';' :: cs => commentBalance cs + 1
  | ';' :: ')' :: cs => commentBalance cs - 1
  | _ :: cs => commentBalance cs

/-- The semicolon of an opening ends nothing. -/
example : commentBalance "(;)".toList = 1 := by decide

/-- From an opening up to where the balance of openings and ends is first zero again. -/
structure IsBlockComment (text : List Char) : Prop where
  opens : ['(', ';'] <+: text
  balanced : commentBalance text = 0
  shortest : ∀ front, front <+: text → ['(', ';'] <+: front → commentBalance front = 0 → front = text

/-- A character that begins neither an opening nor an end does not count. -/
theorem commentBalance_cons {c : Char} {cs : List Char} (hopening : ¬ (c = '(' ∧ cs.head? = some ';'))
    (hclosing : ¬ (c = ';' ∧ cs.head? = some ')')) :
    commentBalance (c :: cs) = commentBalance cs := by
  rw [commentBalance]
  · rintro ds rfl rfl
    exact hopening ⟨rfl, rfl⟩
  · rintro ds rfl rfl
    exact hclosing ⟨rfl, rfl⟩

theorem head?_eq_of_prefix {c : Char} {front cs : List Char} (h : front <+: cs)
    (hc : front.head? = some c) : cs.head? = some c := by
  obtain ⟨back, rfl⟩ := h
  rw [List.head?_append, hc]
  rfl

theorem commentBalance_singleton (c : Char) : commentBalance [c] = 0 :=
  commentBalance_cons (by simp) (by simp)

/-- A text ends `depth` comments more than it opens, and no shorter part of it does so. -/
structure Ends (depth : Nat) (cs : List Char) : Prop where
  balance : commentBalance cs = -depth
  first : ∀ front, front <+: cs → commentBalance front = -depth → front = cs

theorem Ends.eq_nil {cs : List Char} (h : Ends 0 cs) : cs = [] := (h.first [] List.nil_prefix rfl).symm

variable {depth : Nat} {c d : Char} {cs : List Char}

/-- An opening or an end changes how many comments the rest has to end. -/
theorem ends_pair_iff {depth' : Nat} (step : Int)
    (hstep : ∀ ds, commentBalance (c :: d :: ds) = commentBalance ds + step)
    (hdepth : (depth' : Int) = depth + 1 + step) : Ends (depth + 1) (c :: d :: cs) ↔ Ends depth' cs := by
  constructor
  · intro h
    have hbalance := h.balance
    rw [hstep] at hbalance
    refine ⟨by omega, fun front hfront hfirst => ?_⟩
    have hsame := h.first (c :: d :: front) (by simpa using hfront) (by rw [hstep]; omega)
    simpa using hsame
  · intro h
    have hbalance := h.balance
    refine ⟨by rw [hstep]; omega, fun front hfront hfirst => ?_⟩
    rcases List.prefix_cons_iff.1 hfront with rfl | ⟨front', rfl, hfront'⟩
    · exact absurd hfirst (by rw [commentBalance]; omega)
    rcases List.prefix_cons_iff.1 hfront' with rfl | ⟨front'', rfl, hfront''⟩
    · exact absurd hfirst (by rw [commentBalance_singleton]; omega)
    rw [hstep] at hfirst
    rw [h.first front'' hfront'' (by omega)]

theorem ends_cons_iff (hopening : ¬ (c = '(' ∧ cs.head? = some ';'))
    (hclosing : ¬ (c = ';' ∧ cs.head? = some ')')) :
    Ends (depth + 1) (c :: cs) ↔ Ends (depth + 1) cs := by
  have hstep {front : List Char} (h : front <+: cs) :
      commentBalance (c :: front) = commentBalance front :=
    commentBalance_cons (fun hc => hopening ⟨hc.1, head?_eq_of_prefix h hc.2⟩)
      fun hc => hclosing ⟨hc.1, head?_eq_of_prefix h hc.2⟩
  constructor
  · intro h
    have hbalance := h.balance
    rw [hstep (List.prefix_refl cs)] at hbalance
    refine ⟨hbalance, fun front hfront hfirst => ?_⟩
    have hsame := h.first (c :: front) (by simpa using hfront) (by rw [hstep hfront, hfirst])
    simpa using hsame
  · intro h
    refine ⟨by rw [hstep (List.prefix_refl cs), h.balance], fun front hfront hfirst => ?_⟩
    rcases List.prefix_cons_iff.1 hfront with rfl | ⟨front', rfl, hfront'⟩
    · exact absurd hfirst (by rw [commentBalance]; omega)
    rw [hstep hfront'] at hfirst
    rw [h.first front' hfront' hfirst]

theorem ends_opening_iff : Ends (depth + 1) ('(' :: ';' :: cs) ↔ Ends (depth + 2) cs :=
  ends_pair_iff 1 (fun _ => by rw [commentBalance]) (by omega)

theorem ends_closing_iff : Ends (depth + 1) (';' :: ')' :: cs) ↔ Ends depth cs :=
  ends_pair_iff (-1) (fun _ => by rw [commentBalance]; rfl) (by omega)

/-- The rest of a comment is where the comments that wait for their end have all ended. -/
theorem commentTail_iff : CommentTail depth cs ↔ Ends depth cs := by
  constructor
  · intro h
    induction h with
    | done => exact ⟨rfl, fun front hfront _ => List.prefix_nil.1 hfront⟩
    | opening _ ih => exact ends_opening_iff.2 ih
    | closing _ ih => exact ends_closing_iff.2 ih
    | other hopening hclosing _ ih => exact (ends_cons_iff hopening hclosing).2 ih
  · intro h
    -- the text is taken apart as the balance reads it; at depth zero there is none left
    fun_induction commentBalance cs generalizing depth with
    | case1 =>
      have hbalance := h.balance
      rw [commentBalance] at hbalance
      obtain rfl : depth = 0 := by omega
      exact .done
    | case2 cs ih =>
      cases depth with
      | zero => cases h.eq_nil
      | succ depth => exact .opening (ih (ends_opening_iff.1 h))
    | case3 cs ih =>
      cases depth with
      | zero => cases h.eq_nil
      | succ depth => exact .closing (ih (ends_closing_iff.1 h))
    | case4 c cs hopening hclosing ih =>
      cases depth with
      | zero => cases h.eq_nil
      | succ depth =>
        have hopening' : ¬ (c = '(' ∧ cs.head? = some ';') := by
          rintro ⟨rfl, hhead⟩
          obtain ⟨ds, rfl⟩ := List.head?_eq_some_iff.1 hhead
          exact hopening ds rfl rfl
        have hclosing' : ¬ (c = ';' ∧ cs.head? = some ')') := by
          rintro ⟨rfl, hhead⟩
          obtain ⟨ds, rfl⟩ := List.head?_eq_some_iff.1 hhead
          exact hclosing ds rfl rfl
        exact .other hopening' hclosing' (ih ((ends_cons_iff hopening' hclosing').1 h))

/-- A block comment is an opening and what ends it. -/
theorem isBlockComment_cons_iff : IsBlockComment ('(' :: ';' :: cs) ↔ CommentTail 1 cs := by
  rw [commentTail_iff]
  constructor
  · intro h
    have hbalance := h.balanced
    rw [commentBalance] at hbalance
    refine ⟨by omega, fun front hfront hfirst => ?_⟩
    have hsame := h.shortest ('(' :: ';' :: front) (by simpa using hfront) (by simp)
      (by rw [commentBalance]; omega)
    simpa using hsame
  · intro h
    refine ⟨by simp, by rw [commentBalance, h.balance]; rfl, fun front hfront hopens hzero => ?_⟩
    obtain ⟨front, rfl⟩ := hopens
    rw [List.cons_append, List.cons_append, List.nil_append] at hfront hzero ⊢
    rw [commentBalance] at hzero
    rw [h.first front (by simpa using hfront) (by omega)]

/-! ### Strings -/

/-- How many backslashes end a text. -/
def trailingBackslashes (cs : List Char) : Nat := (cs.reverse.takeWhile (· == '\\')).length

/-- Whether the last character of a text is an unpaired backslash. -/
def endsEscaping (cs : List Char) : Bool := trailingBackslashes cs % 2 == 1

/-- What a string holds: no unpaired backslash precedes the quote that closes it, and one precedes
every earlier quote. -/
structure IsStringBody (body : List Char) : Prop where
  closed : endsEscaping body = false
  escaped : ∀ front back, body = front ++ '"' :: back → endsEscaping front = true

/-- From a quote up to the first quote behind it that no unpaired backslash precedes. -/
def IsString (text : List Char) : Prop := ∃ body, text = '"' :: (body ++ ['"']) ∧ IsStringBody body

theorem length_trailingBackslashes (h : ∀ b ∈ cs, b = '\\') : trailingBackslashes cs = cs.length := by
  have hall : (cs.reverse ++ []).takeWhile (· == '\\') = cs.reverse ++ [].takeWhile (· == '\\') :=
    List.takeWhile_append_of_pos (by simpa using h)
  rw [List.append_nil, List.takeWhile_nil, List.append_nil] at hall
  rw [trailingBackslashes, hall, List.length_reverse]

theorem trailingBackslashes_cons_of_all (h : ∀ b ∈ cs, b = '\\') (c : Char) :
    trailingBackslashes (c :: cs) = cs.length + if c = '\\' then 1 else 0 := by
  rw [trailingBackslashes, List.reverse_cons, List.takeWhile_append_of_pos (by simpa using h)]
  by_cases hc : c = '\\' <;> simp [hc]

theorem trailingBackslashes_cons_of_not_all (h : ¬ ∀ b ∈ cs, b = '\\') (c : Char) :
    trailingBackslashes (c :: cs) = trailingBackslashes cs := by
  have hshort : (cs.reverse.takeWhile (· == '\\')).length ≠ cs.reverse.length := by
    intro hall
    have hself := (List.takeWhile_prefix (· == '\\')).eq_of_length hall
    have htaken : (cs.reverse.takeWhile (· == '\\')).all (· == '\\') = true := List.all_takeWhile
    rw [hself] at htaken
    exact h (by simpa using htaken)
  rw [trailingBackslashes, List.reverse_cons, List.takeWhile_append, if_neg hshort,
    trailingBackslashes]

/-- Only the backslashes at the end of a text count. -/
theorem endsEscaping_cons (hc : c ≠ '\\') (cs : List Char) :
    endsEscaping (c :: cs) = endsEscaping cs := by
  by_cases h : ∀ b ∈ cs, b = '\\'
  · have hself : trailingBackslashes cs = cs.length := length_trailingBackslashes h
    rw [endsEscaping, trailingBackslashes_cons_of_all h, if_neg hc, endsEscaping, hself]
    rfl
  · rw [endsEscaping, trailingBackslashes_cons_of_not_all h, endsEscaping]

/-- A backslash and the character that it takes do not count. -/
theorem endsEscaping_cons_cons (c : Char) (cs : List Char) :
    endsEscaping ('\\' :: c :: cs) = endsEscaping cs := by
  by_cases hc : c = '\\'
  · subst hc
    by_cases h : ∀ b ∈ cs, b = '\\'
    · have hcons : ∀ b ∈ '\\' :: cs, b = '\\' := List.forall_mem_cons.2 ⟨rfl, h⟩
      have hself : trailingBackslashes cs = cs.length := length_trailingBackslashes h
      rw [endsEscaping, trailingBackslashes_cons_of_all hcons, endsEscaping, hself, List.length_cons,
        if_pos rfl, Nat.add_assoc, Nat.add_mod_right]
    · have hcons : ¬ ∀ b ∈ '\\' :: cs, b = '\\' := fun hall => h (List.forall_mem_cons.1 hall).2
      rw [endsEscaping, trailingBackslashes_cons_of_not_all hcons,
        trailingBackslashes_cons_of_not_all h, endsEscaping]
  · have hcons : ¬ ∀ b ∈ c :: cs, b = '\\' := fun hall => hc (List.forall_mem_cons.1 hall).1
    rw [endsEscaping, trailingBackslashes_cons_of_not_all hcons, ← endsEscaping, endsEscaping_cons hc]

theorem isStringBody_nil : IsStringBody [] := ⟨rfl, fun front back h => by simp at h⟩

theorem isStringBody_cons_iff (hquote : c ≠ '"') (hc : c ≠ '\\') {body : List Char} :
    IsStringBody (c :: body) ↔ IsStringBody body := by
  constructor
  · intro h
    refine ⟨(endsEscaping_cons hc body) ▸ h.closed, fun front back hbody => ?_⟩
    rw [← endsEscaping_cons hc]
    exact h.escaped (c :: front) back (by rw [hbody]; rfl)
  · intro h
    refine ⟨(endsEscaping_cons hc body).trans h.closed, fun front back hbody => ?_⟩
    cases front with
    | nil => exact absurd (List.cons.inj hbody).1 hquote
    | cons d front =>
      obtain ⟨rfl, hrest⟩ := List.cons.inj hbody
      exact (endsEscaping_cons hc front).trans (h.escaped front back hrest)

theorem isStringBody_cons_cons_iff {body : List Char} :
    IsStringBody ('\\' :: c :: body) ↔ IsStringBody body := by
  constructor
  · intro h
    refine ⟨(endsEscaping_cons_cons c body) ▸ h.closed, fun front back hbody => ?_⟩
    rw [← endsEscaping_cons_cons c]
    exact h.escaped ('\\' :: c :: front) back (by rw [hbody]; rfl)
  · intro h
    refine ⟨(endsEscaping_cons_cons c body).trans h.closed, fun front back hbody => ?_⟩
    rcases front with _ | ⟨b, _ | ⟨d, front⟩⟩
    · simp at hbody
    · obtain ⟨rfl, -⟩ := List.cons.inj hbody
      rfl
    · obtain ⟨rfl, hinner⟩ := List.cons.inj hbody
      obtain ⟨rfl, hrest⟩ := List.cons.inj hinner
      exact (endsEscaping_cons_cons _ front).trans (h.escaped front back hrest)

/-- The quote behind a body closes the string, and none in front of it does. -/
theorem stringTail_append : (body : List Char) → IsStringBody body → StringTail (body ++ ['"'])
  | [], _ => .quote
  | c :: body, h => by
    by_cases hc : c = '\\'
    · subst hc
      match body with
      | [] => exact absurd h.closed (by decide)
      | d :: body => exact .escaped (stringTail_append body (isStringBody_cons_cons_iff.1 h))
    · have hquote : c ≠ '"' := by
        rintro rfl
        exact absurd (h.escaped [] body rfl) (by decide)
      exact .other hquote hc (stringTail_append body ((isStringBody_cons_iff hquote hc).1 h))

/-- A string is a quote and what closes it. -/
theorem isString_cons_iff : IsString ('"' :: cs) ↔ StringTail cs := by
  constructor
  · rintro ⟨body, htext, hclosed, hescaped⟩
    obtain rfl := (List.cons.inj htext).2
    exact stringTail_append body ⟨hclosed, hescaped⟩
  · intro h
    obtain ⟨body, rfl, hbody⟩ : ∃ body, cs = body ++ ['"'] ∧ IsStringBody body := by
      induction h with
      | quote => exact ⟨[], rfl, isStringBody_nil⟩
      | @escaped c cs _ ih =>
        obtain ⟨body, rfl, hbody⟩ := ih
        exact ⟨'\\' :: c :: body, rfl, isStringBody_cons_cons_iff.2 hbody⟩
      | @other c cs hquote hc _ ih =>
        obtain ⟨body, rfl, hbody⟩ := ih
        exact ⟨c :: body, rfl, (isStringBody_cons_iff hquote hc).2 hbody⟩
    exact ⟨body, rfl, hbody.closed, hbody.escaped⟩

end BulkMemory.Lexeme
