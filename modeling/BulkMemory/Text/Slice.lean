import BulkMemory.Text.Position

/-!
# Cutting a text at byte offsets

`splitAt?` cuts a text at a byte offset and refuses an offset that lies inside a character or past
the end. `splitAt?_append` says that it finds every cut, `eq_append_of_splitAt?` that it finds no
other. `slice?` cuts out a range, and `isSome_slice?_iff` says which ranges it refuses.
-/

namespace BulkMemory
set_option autoImplicit false

/-- Cut a text at a byte offset; `none` when no character begins or ends there. -/
def splitAt? : Nat → List Char → Option (List Char × List Char)
  | 0, cs => some ([], cs)
  | _ + 1, [] => none
  | n + 1, c :: cs =>
    if c.utf8Size ≤ n + 1 then
      (splitAt? (n + 1 - c.utf8Size) cs).map fun (front, back) => (c :: front, back)
    else none

/-- The characters in a range of bytes; `none` when the range is reversed or cuts a character. -/
def slice? (span : Span) (cs : List Char) : Option (List Char) :=
  if span.start ≤ span.stop then do
    let (_, tail) ← splitAt? span.start cs
    let (middle, _) ← splitAt? span.size tail
    return middle
  else none

theorem splitAt?_zero (cs : List Char) : splitAt? 0 cs = some ([], cs) := by
  cases cs <;> rfl

/-- Every cut of a text is found at the size of its front. -/
theorem splitAt?_append (a b : List Char) : splitAt? (byteSize a) (a ++ b) = some (a, b) := by
  induction a with
  | nil => simp [splitAt?_zero]
  | cons c cs ih =>
    have hc : 0 < c.utf8Size := Char.utf8Size_pos c
    obtain ⟨n, hn⟩ : ∃ n, byteSize (c :: cs) = n + 1 :=
      ⟨c.utf8Size + byteSize cs - 1, by rw [byteSize_cons]; omega⟩
    have hsub : n + 1 - c.utf8Size = byteSize cs := by rw [← hn, byteSize_cons]; omega
    have hle : c.utf8Size ≤ n + 1 := by rw [← hn, byteSize_cons]; omega
    rw [hn, List.cons_append, splitAt?, if_pos hle, hsub, ih]
    rfl

/-- A cut loses nothing, and its front has the size asked for. -/
theorem eq_append_of_splitAt? {n : Nat} {cs a b : List Char}
    (h : splitAt? n cs = some (a, b)) : cs = a ++ b ∧ byteSize a = n := by
  fun_induction splitAt? n cs generalizing a b with
  | case1 => simp_all
  | case2 => simp at h
  | case3 n c cs hle ih =>
    obtain ⟨⟨front, back⟩, hcut, hab⟩ := Option.map_eq_some_iff.1 h
    obtain ⟨rfl, hsize⟩ := ih hcut
    cases hab
    exact ⟨rfl, by rw [byteSize_cons]; omega⟩
  | case4 => simp at h

/-- A cut behind a front part cuts the other part. -/
theorem splitAt?_append_add (a b : List Char) (n : Nat) :
    splitAt? (byteSize a + n) (a ++ b) =
      (splitAt? n b).map fun (front, back) => (a ++ front, back) := by
  induction a with
  | nil => simp
  | cons c cs ih =>
    have hc : 0 < c.utf8Size := Char.utf8Size_pos c
    obtain ⟨k, hk⟩ : ∃ k, byteSize (c :: cs) + n = k + 1 :=
      ⟨c.utf8Size + byteSize cs + n - 1, by rw [byteSize_cons]; omega⟩
    have hsub : k + 1 - c.utf8Size = byteSize cs + n := by rw [← hk, byteSize_cons]; omega
    have hle : c.utf8Size ≤ k + 1 := by rw [← hk, byteSize_cons]; omega
    rw [hk, List.cons_append, splitAt?, if_pos hle, hsub, ih, Option.map_map]
    rfl

/-! ### Which ranges can be cut out -/

/-- A range whose ends are in order, within a text, and between two of its characters. -/
structure Span.Fits (span : Span) (text : String) : Prop where
  ordered : span.start ≤ span.stop
  within : span.stop ≤ text.utf8ByteSize
  start : String.Pos.Raw.IsValid text ⟨span.start⟩
  stop : String.Pos.Raw.IsValid text ⟨span.stop⟩

theorem slice?_append (a m b : List Char) :
    slice? ⟨byteSize a, byteSize a + byteSize m⟩ (a ++ (m ++ b)) = some m := by
  have hsize : (⟨byteSize a, byteSize a + byteSize m⟩ : Span).size = byteSize m := by
    simp only [Span.size]
    omega
  rw [slice?, if_pos (Nat.le_add_right _ _), hsize]
  simp only [splitAt?_append, Option.bind_eq_bind, Option.bind_some, Option.pure_def]

/-- A slice is a middle part of the text. -/
theorem slice?_eq_some_iff {span : Span} {text m : List Char} :
    slice? span text = some m ↔
      ∃ a b, text = a ++ (m ++ b) ∧ span = ⟨byteSize a, byteSize a + byteSize m⟩ := by
  constructor
  · intro h
    rw [slice?] at h
    split at h
    · next hle =>
      obtain ⟨⟨a, tail⟩, htail, h⟩ := Option.bind_eq_some_iff.1 h
      obtain ⟨⟨middle, b⟩, hmiddle, h⟩ := Option.bind_eq_some_iff.1 h
      cases h
      obtain ⟨rfl, hstart⟩ := eq_append_of_splitAt? htail
      obtain ⟨rfl, hsize⟩ := eq_append_of_splitAt? hmiddle
      refine ⟨a, b, rfl, ?_⟩
      rw [hstart, hsize, Span.size, Nat.add_sub_cancel' hle]
    · cases h
  · rintro ⟨a, b, rfl, rfl⟩
    exact slice?_append a m b

/-- A text can be cut at its valid positions. -/
theorem isValid_offset_iff {text : String} {offset : Nat} :
    String.Pos.Raw.IsValid text ⟨offset⟩ ↔
      ∃ a b, text.toList = a ++ b ∧ byteSize a = offset := by
  rw [String.Pos.Raw.isValid_iff_exists_append]
  constructor
  · rintro ⟨a, b, rfl, hoffset⟩
    refine ⟨a.toList, b.toList, String.toList_append, ?_⟩
    rw [byteSize_toList]
    exact (congrArg String.Pos.Raw.byteIdx hoffset).symm
  · rintro ⟨a, b, hsplit, rfl⟩
    refine ⟨String.ofList a, String.ofList b, ?_, ?_⟩
    · rw [← String.ofList_append, ← hsplit, String.ofList_toList]
    · rw [← utf8ByteSize_ofList a]
      rfl

/-- A slice is refused exactly when its range does not fit. -/
theorem isSome_slice?_iff {span : Span} {text : String} :
    (slice? span text.toList).isSome = true ↔ span.Fits text := by
  rw [Option.isSome_iff_exists]
  constructor
  · rintro ⟨m, hm⟩
    obtain ⟨a, b, hsplit, rfl⟩ := slice?_eq_some_iff.1 hm
    refine ⟨Nat.le_add_right _ _, ?_, isValid_offset_iff.2 ⟨a, m ++ b, hsplit, rfl⟩,
      isValid_offset_iff.2 ⟨a ++ m, b, by rw [hsplit, List.append_assoc], byteSize_append a m⟩⟩
    rw [← byteSize_toList, hsplit, byteSize_append, byteSize_append]
    show byteSize a + byteSize m ≤ _
    omega
  · intro h
    obtain ⟨a, b, hstart, ha⟩ := isValid_offset_iff.1 h.start
    obtain ⟨a', b', hstop, ha'⟩ := isValid_offset_iff.1 h.stop
    -- two fronts of one text: the shorter one is a front of the other
    rcases List.append_eq_append_iff.1 (hstart.symm.trans hstop) with ⟨m, rfl, rfl⟩ | ⟨m, rfl, rfl⟩
    · rw [byteSize_append, ha] at ha'
      refine ⟨m, slice?_eq_some_iff.2 ⟨a, b', hstart, ?_⟩⟩
      rw [ha, ha']
    · have hordered := h.ordered
      rw [byteSize_append, ha'] at ha
      refine ⟨[], slice?_eq_some_iff.2 ⟨a' ++ m, b, by simpa using hstart, ?_⟩⟩
      rw [byteSize_append, byteSize_nil, ha', Nat.add_zero, ha]
      have heq : span.stop = span.start := by omega
      obtain ⟨start, stop⟩ := span
      exact congrArg (Span.mk start) heq

end BulkMemory
