import BulkMemory.Proofs.Token.Depth
import BulkMemory.Proofs.Token.Exact
import BulkMemory.Text.Slice

/-!
# The tokens of a source cover it

The tokens of a source stand one behind the other from its first byte to its last, and each is what
the source holds between two of its character boundaries. The line and the column of a token count
what stands in front of it (`Position.IsBehind`). `tokenize_covers` puts this together.
-/

namespace BulkMemory
set_option autoImplicit false

open Lexeme

/-- A text is cut in one way at each of its offsets. -/
theorem append_inj_of_byteSize {a b c d : List Char} (h : a ++ b = c ++ d)
    (hsize : byteSize a = byteSize c) : a = c ∧ b = d := by
  have hcut := splitAt?_append a b
  rw [h, hsize, splitAt?_append] at hcut
  cases hcut
  exact ⟨rfl, rfl⟩

namespace Position

/-- A position is that of the character behind a text: its line counts the line feeds of the text, and
its column the characters of the last line of it, both from one on. -/
structure IsBehind (p : Position) (front : String) : Prop where
  line : p.line = 1 + front.toList.count '\n'
  column : ∃ above here : String, front = above ++ here ∧ '\n' ∉ here.toList ∧
    (∀ c ∈ above.toList.getLast?, c = '\n') ∧ p.column = 1 + here.length

theorem isBehind_placeBehind (front : String) : (placeBehind front.toList).IsBehind front := by
  -- the last line is what the reversed text begins with, up to a line feed
  have hcut := List.takeWhile_append_dropWhile (p := (· != '\n')) (l := front.toList.reverse)
  have hline : ∀ c ∈ front.toList.reverse.takeWhile (· != '\n'), c ≠ '\n' := fun c hc => by
    simpa using List.all_eq_true.1 (List.all_takeWhile (p := (· != '\n'))) c hc
  have hfeed : ∀ c ∈ (front.toList.reverse.dropWhile (· != '\n')).head?, c = '\n' := fun c hc => by
    have hstop := List.head?_dropWhile_not (· != '\n') front.toList.reverse
    rw [Option.mem_def.1 hc] at hstop
    simpa using hstop
  refine ⟨rfl, String.ofList (front.toList.reverse.dropWhile (· != '\n')).reverse,
    String.ofList (front.toList.reverse.takeWhile (· != '\n')).reverse, ?_, ?_, ?_, ?_⟩
  · rw [← String.ofList_append, ← List.reverse_append, hcut, List.reverse_reverse,
      String.ofList_toList]
  · rw [String.toList_ofList, List.mem_reverse]
    exact fun hmem => hline '\n' hmem rfl
  · rwa [String.toList_ofList, List.getLast?_reverse]
  · rw [String.length_ofList, List.length_reverse]
    rfl

end Position

/-- Some tokens cover a source without a gap or an overlap, and each of them is the text of the source
at its place. -/
structure AreCoverOf (source : String) (ts : List Token) : Prop where
  nonempty : ∀ t ∈ ts, t.span.start < t.span.stop
  adjacent : ∀ before t u after, ts = before ++ t :: u :: after → t.span.stop = u.span.start
  first : ∀ t ∈ ts.head?, t.span.start = 0
  last : ∀ t ∈ ts.getLast?, t.span.stop = source.utf8ByteSize
  boundaries : ∀ t ∈ ts, String.Pos.Raw.IsValid source ⟨t.span.start⟩ ∧
    String.Pos.Raw.IsValid source ⟨t.span.stop⟩
  slices : ∀ t ∈ ts, ∃ front back, source = front ++ t.text ++ back ∧
    front.utf8ByteSize = t.span.start ∧ (front ++ t.text).utf8ByteSize = t.span.stop
  joined : String.join (ts.map fun t => t.text) = source
  placed : ∀ t ∈ ts, ∀ front back, source = front ++ back → front.utf8ByteSize = t.span.start →
    t.position.IsBehind front

namespace AreTokensOf

variable {source : String} {ts before after : List Token} {t : Token}

/-- The text in front of a token. -/
theorem exists_front (h : AreTokensOf source ts) (ht : t ∈ ts) :
    ∃ front back, source = front ++ t.text ++ back ∧ front.utf8ByteSize = t.start ∧
      t.position = placeBehind front.toList := by
  obtain ⟨before, after, rfl⟩ := List.append_of_mem ht
  obtain ⟨hstart, hposition⟩ := h.placed before t after rfl
  refine ⟨String.ofList (chars (before.map Token.toLexeme)),
    String.ofList (chars (after.map Token.toLexeme)), ?_, ?_, ?_⟩
  · rw [← String.toList_inj, ← h.covering]
    simp
  · rw [utf8ByteSize_ofList, hstart]
  · rw [String.toList_ofList, hposition]

theorem text_ne_nil (h : AreTokensOf source ts) (ht : t ∈ ts) : t.text.toList ≠ [] := by
  obtain ⟨before, after, rfl⟩ := List.append_of_mem ht
  have hcomplete := h.complete (before.map Token.toLexeme) t.toLexeme (after.map Token.toLexeme)
    (by simp)
  exact (isComplete_iff.1 hcomplete).text_ne_nil

/-- A token ends where the next one begins. -/
theorem stop_eq {u : Token} (h : AreTokensOf source (before ++ t :: u :: after)) :
    t.stop = u.start := by
  obtain ⟨hstart, -⟩ := h.placed before t (u :: after) rfl
  obtain ⟨hnext, -⟩ := h.placed (before ++ [t]) u after (by simp)
  rw [hnext, Token.stop, hstart]
  simp [size]

theorem stop_getLast? (h : AreTokensOf source (before ++ [t])) : t.stop = source.utf8ByteSize := by
  obtain ⟨hstart, -⟩ := h.placed before t [] rfl
  rw [← byteSize_toList, ← h.covering, Token.stop, hstart]
  simp [size]

end AreTokensOf

/-- The tokens of a source cover it, each at its place. -/
theorem tokenize_covers {source : String} {ts : List Token} (htokens : tokenize source = .ok ts) :
    AreCoverOf source ts := by
  have h := areTokensOf_iff.2 htokens
  have hslices : ∀ t ∈ ts, ∃ front back, source = front ++ t.text ++ back ∧
      front.utf8ByteSize = t.span.start ∧ (front ++ t.text).utf8ByteSize = t.span.stop := by
    intro t ht
    obtain ⟨front, back, hsource, hstart, -⟩ := h.exists_front ht
    refine ⟨front, back, hsource, hstart, ?_⟩
    rw [String.utf8ByteSize_append, hstart, ← byteSize_toList t.text]
    rfl
  refine {
    nonempty := fun t ht => Nat.lt_add_of_pos_right (byteSize_pos (h.text_ne_nil ht))
    adjacent := fun before t u after hsplit => (hsplit ▸ h).stop_eq
    first := fun t ht => ?_
    last := fun t ht => ?_
    boundaries := fun t ht => ?_
    slices := hslices
    joined := ?_
    placed := fun t ht front back hcut hsize => ?_ }
  · obtain ⟨after, rfl⟩ := List.head?_eq_some_iff.1 ht
    exact (h.placed [] t after rfl).1
  · obtain ⟨before, rfl⟩ := List.getLast?_eq_some_iff.1 ht
    exact h.stop_getLast?
  · obtain ⟨front, back, hsource, hstart, hstop⟩ := hslices t ht
    simp only [String.Pos.Raw.isValid_iff_exists_append]
    refine ⟨⟨front, t.text ++ back, by rw [hsource, String.append_assoc], ?_⟩,
      front ++ t.text, back, hsource, ?_⟩
    · rw [← hstart]
      rfl
    · rw [← hstop]
      rfl
  · rw [← String.toList_inj, ← h.covering]
    simp [chars, String.toList_join, List.flatMap_map]
  · obtain ⟨front', back', hsource, hstart, hposition⟩ := h.exists_front ht
    have happend : front.toList ++ back.toList = front'.toList ++ (t.text ++ back').toList := by
      rw [← String.toList_append, ← String.toList_append, ← hcut, hsource, String.append_assoc]
    obtain ⟨hfront, -⟩ := append_inj_of_byteSize happend (by
      rw [byteSize_toList, byteSize_toList, hsize, hstart]
      rfl)
    rw [hposition, ← hfront]
    exact Position.isBehind_placeBehind front

/-- Line feeds inside a comment and inside a string, and characters of two bytes. -/
theorem tokenize_covers_lines :
    ∃ ts, tokenize "(;é\n;)\"a\nb\" ß" = .ok ts ∧ AreCoverOf "(;é\n;)\"a\nb\" ß" ts := by
  have hlexemes : Lexer.run "(;é\n;)\"a\nb\" ß".toList =
      ([⟨.blockComment, "(;é\n;)"⟩, ⟨.string, "\"a\nb\""⟩, ⟨.blank, " "⟩, ⟨.reserved, "ß"⟩], none) := by
    decide +kernel
  have htokens := tokenize.eq_def "(;é\n;)\"a\nb\" ß"
  rw [hlexemes] at htokens
  exact ⟨_, htokens, tokenize_covers htokens⟩

end BulkMemory
