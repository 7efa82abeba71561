import EditorScaffold.Proofs.Text.LineStart
import EditorScaffold.Text.Position
import Mathlib.Data.List.TakeWhile

/-! # Places and labels

The place of a reader is a line and a column, and the start of the line and the column together are the number of bytes
that have been read (`lineStart_add_column`). So the label of the place is the last byte read, or the start of the line
where nothing of the line has been read (`label?_after`), and the sum that it is made of goes neither beyond the text nor
beyond a word. Lines can be cut at the characters of a text as well as at its bytes (`label?_bytes`), as no other
character has the byte of a newline in its UTF-8 form. -/

namespace EditorScaffold.Position

variable {bs l : List UInt8} {i : ℕ}

/-- The offset at which a line starts, or the end of the bytes if there are fewer lines. -/
def lineStart (bs : List UInt8) (line : ℕ) : ℕ := ((pieces bs).take (line - 1)).flatten.length

theorem label?_eq (p : Position) (bs : List UInt8) :
    p.label? bs =
      if p.line = 0 then some 0
      else if lineStart bs p.line + (p.column - 1) < Text.wordBound then
        some (min (lineStart bs p.line + (p.column - 1)) bs.length)
      else none := rfl

/-! ### Lines of bytes -/

theorem pieces_of_notMem (hl : newline ∉ l) (hne : l ≠ []) : pieces l = [l] := by
  induction l with
  | nil => exact absurd rfl hne
  | cons b l ih =>
    rw [List.mem_cons, not_or] at hl
    rw [pieces, if_neg (Ne.symm hl.1)]
    by_cases h : l = []
    · rw [h]
      rfl
    · rw [ih hl.2 h]

/-- **The first line** is a piece with its newline. -/
theorem pieces_cut (hl : newline ∉ l) (bs : List UInt8) :
    pieces (l ++ newline :: bs) = (l ++ [newline]) :: pieces bs := by
  induction l with
  | nil => rw [List.nil_append, pieces, if_pos rfl]; rfl
  | cons b l ih =>
    rw [List.mem_cons, not_or] at hl
    rw [List.cons_append, pieces, if_neg (Ne.symm hl.1), ih hl.2]
    rfl

theorem lineStart_one (bs : List UInt8) : lineStart bs 1 = 0 := rfl

/-- After the first line, lines start where they start in the rest. -/
theorem lineStart_cut (hl : newline ∉ l) (bs : List UInt8) {line : ℕ} (hline : line ≠ 0) :
    lineStart (l ++ newline :: bs) (line + 1) = l.length + 1 + lineStart bs line := by
  obtain ⟨k, rfl⟩ := Nat.exists_eq_succ_of_ne_zero hline
  rw [lineStart, lineStart, pieces_cut hl, Nat.add_sub_cancel, Nat.succ_eq_add_one, Nat.add_sub_cancel,
    List.take_succ_cons, List.flatten_cons, List.length_append, List.length_append, List.length_singleton]

/-! ### Places of readers -/

theorem line_after_ne_zero (bs : List UInt8) (i : ℕ) : (after bs i).line ≠ 0 := by
  rw [after, Nat.add_comm]
  exact Nat.succ_ne_zero _

/-- In the first line, the column is the number of bytes that have been read. -/
theorem after_of_notMem (h : newline ∉ bs.take i) (hi : i ≤ bs.length) : after bs i = ⟨1, i⟩ := by
  have hcolumn : (bs.take i).reverse.takeWhile (· ≠ newline) = (bs.take i).reverse :=
    List.takeWhile_eq_self_iff.2 fun b hb => decide_eq_true fun hb' => h (hb' ▸ List.mem_reverse.1 hb)
  rw [after, List.count_eq_zero_of_not_mem h, hcolumn, List.length_reverse, List.length_take_of_le hi]

theorem takeWhile_append_newline (bs cs : List UInt8) :
    (bs ++ newline :: cs).takeWhile (· ≠ newline) = bs.takeWhile (· ≠ newline) := by
  induction bs with
  | nil => rw [List.nil_append, List.takeWhile_cons_of_neg (by simp)]; rfl
  | cons b bs ih => rw [List.cons_append, List.takeWhile_cons, List.takeWhile_cons, ih]

/-- After the first line, a place is one line further than in the rest. -/
theorem after_cut (hl : newline ∉ l) (bs : List UInt8) (k : ℕ) :
    after (l ++ newline :: bs) (l.length + 1 + k) = ⟨(after bs k).line + 1, (after bs k).column⟩ := by
  have htake : (l ++ newline :: bs).take (l.length + 1 + k) = l ++ newline :: bs.take k := by
    rw [Nat.add_assoc, List.take_length_add_append, Nat.add_comm 1 k, List.take_succ_cons]
  rw [after, htake, List.count_append, List.count_cons_self, List.count_eq_zero_of_not_mem hl, Nat.zero_add,
    List.reverse_append, List.reverse_cons, List.append_assoc, List.singleton_append, takeWhile_append_newline]
  rfl

/-- Only the bytes that have been read matter, and they are not more than all. -/
theorem after_min (bs : List UInt8) (i : ℕ) : after bs (min i bs.length) = after bs i := by
  have htake : bs.take (min i bs.length) = bs.take i := List.take_eq_take_min.symm
  rw [after, after, htake]

/-- **The start of the line and the column** together are the number of bytes that have been read. -/
theorem lineStart_add_column (hi : i ≤ bs.length) : lineStart bs (after bs i).line + (after bs i).column = i := by
  induction bs using Text.cut_induction newline generalizing i with
  | last l hl => rw [after_of_notMem (fun h => hl (List.mem_of_mem_take h)) hi, lineStart_one, Nat.zero_add]
  | cut l bs hl ih =>
    rcases Nat.lt_or_ge l.length i with h | h
    · obtain ⟨k, rfl⟩ := Nat.exists_eq_add_of_le h
      have hk : k ≤ bs.length := by
        rw [List.length_append, List.length_cons] at hi
        omega
      rw [Nat.succ_eq_add_one, after_cut hl, lineStart_cut hl bs (line_after_ne_zero bs k), Nat.add_assoc, ih hk]
    · have hnot : newline ∉ (l ++ newline :: bs).take i := by
        rw [List.take_append_of_le_length h]
        exact fun hmem => hl (List.mem_of_mem_take hmem)
      rw [after_of_notMem hnot hi, lineStart_one, Nat.zero_add]

/-- **The label of a place** is the last byte read, or the start of a line of which nothing has been read. -/
theorem label?_after (hbs : bs.length < Text.wordBound) (hi : i ≤ bs.length) :
    (after bs i).label? bs = some (if (after bs i).column = 0 then i else i - 1) := by
  have hsum := lineStart_add_column hi
  have hword : lineStart bs (after bs i).line + ((after bs i).column - 1) < Text.wordBound := by omega
  rw [label?_eq, if_neg (line_after_ne_zero bs i), if_pos hword]
  refine congrArg some ?_
  split <;> omega

/-! ### Lines of characters -/

/-- The bytes of a longer form are not below 128. -/
theorem le_toNat_of_mem_utf8EncodeChar {c : Char} (hc : 127 < c.val.toNat) :
    ∀ b ∈ String.utf8EncodeChar c, 128 ≤ b.toNat := by
  rw [String.utf8EncodeChar, if_neg (Nat.not_le.2 hc)]
  split_ifs <;> simp only [List.forall_mem_cons, UInt8.toNat_ofNat', List.not_mem_nil] <;> grind

/-- **No other character has the byte of a newline** in its UTF-8 form. -/
theorem newline_mem_utf8EncodeChar_iff (c : Char) : newline ∈ String.utf8EncodeChar c ↔ c = '\n' := by
  constructor
  · intro h
    rcases Nat.lt_or_ge 127 c.val.toNat with hc | hc
    · exact absurd (le_toNat_of_mem_utf8EncodeChar hc _ h) (by decide)
    · rw [String.utf8EncodeChar, if_pos hc] at h
      have hvalue : 10 = c.val.toNat % 256 := congrArg UInt8.toNat (List.mem_singleton.1 h)
      exact Char.ext (UInt32.toNat_inj.1 (show c.val.toNat = 10 by omega))
  · rintro rfl
    decide

theorem newline_mem_bytes_iff (t : Text) : newline ∈ t.bytes ↔ '\n' ∈ t := by
  simp [Text.bytes, List.mem_flatMap, newline_mem_utf8EncodeChar_iff]

theorem bytes_cut (l t : Text) : (l ++ '\n' :: t).bytes = l.bytes ++ newline :: t.bytes := List.flatMap_append

/-- **Lines start where the lines of characters start**, of which each but the last has a newline after it. -/
theorem lineStart_bytes (t : Text) (k : ℕ) :
    lineStart t.bytes (k + 1) = min (Text.byteSize ((t.lines.take k).flatMap (· ++ ['\n']))) t.byteSize := by
  induction t using Text.lines_induction generalizing k with
  | last l hl =>
    have hbytes : newline ∉ l.bytes := mt (newline_mem_bytes_iff l).1 hl
    rw [Text.lines_of_notMem hl]
    cases k with
    | zero => exact (Nat.zero_min _).symm
    | succ k =>
      rw [List.take_succ_cons, List.take_nil, List.flatMap_singleton, Text.byteSize_append,
        Nat.min_eq_right (Nat.le_add_right _ _), ← Text.length_bytes]
      by_cases hne : l.bytes = []
      · rw [hne]
        rfl
      · rw [lineStart, pieces_of_notMem hbytes hne]
        simp
  | cut l t hl ih =>
    have hbytes : newline ∉ l.bytes := mt (newline_mem_bytes_iff l).1 hl
    cases k with
    | zero => exact (Nat.zero_min _).symm
    | succ k =>
      have hsize : '\n'.utf8Size = 1 := by decide
      rw [bytes_cut, lineStart_cut hbytes t.bytes k.succ_ne_zero, ih, Text.lines_cut hl, List.take_succ_cons,
        List.flatMap_cons, Text.length_bytes, Text.byteSize_append, Text.byteSize_append, Text.byteSize_append,
        Text.byteSize_cons, Text.byteSize_cons, Text.byteSize_nil, hsize]
      omega

/-- **The label of a place by lines of characters.** -/
theorem label?_bytes {p : Position} (hline : p.line ≠ 0) (t : Text) :
    p.label? t.bytes =
      let offset := min (Text.byteSize ((t.lines.take (p.line - 1)).flatMap (· ++ ['\n']))) t.byteSize + (p.column - 1)
      if offset < Text.wordBound then some (min offset t.byteSize) else none := by
  have hstart := lineStart_bytes t (p.line - 1)
  rw [Nat.sub_add_cancel (Nat.one_le_iff_ne_zero.2 hline)] at hstart
  rw [label?_eq, if_neg hline, hstart, Text.length_bytes]

end EditorScaffold.Position
