/-! # Text

A text is the list of its characters. Sizes and offsets are counted in the bytes of its UTF-8 form, and
texts are ordered by code points, which is also the order of their UTF-8 bytes. -/

namespace EditorScaffold

/-- A text is the list of its characters. -/
abbrev Text := List Char

namespace Text

/-! ### Bytes -/

/-- The UTF-8 form of a text. -/
def bytes (t : Text) : List UInt8 := t.flatMap String.utf8EncodeChar

/-- The number of bytes of the UTF-8 form. -/
def byteSize (t : Text) : Nat := t.foldr (fun c n => c.utf8Size + n) 0

@[simp] theorem byteSize_nil : byteSize [] = 0 := rfl

@[simp] theorem byteSize_cons (c : Char) (t : Text) : byteSize (c :: t) = c.utf8Size + byteSize t := rfl

@[simp] theorem byteSize_append (s t : Text) : byteSize (s ++ t) = byteSize s + byteSize t := by
  induction s with
  | nil => simp
  | cons c s ih =>
    rw [List.cons_append, byteSize_cons, ih, byteSize_cons]
    omega

theorem byteSize_replicate (n : Nat) (c : Char) : byteSize (List.replicate n c) = n * c.utf8Size := by
  induction n with
  | zero => exact (Nat.zero_mul _).symm
  | succ n ih => rw [List.replicate_succ, byteSize_cons, ih, Nat.succ_mul, Nat.add_comm]

theorem length_bytes (t : Text) : (bytes t).length = byteSize t := by
  induction t with
  | nil => rfl
  | cons c t ih =>
    rw [byteSize_cons, ← ih]
    simp [bytes]

/-- The greatest number of bytes of a text in memory: what a signed word of 64 bits can count. That there is memory
for every shorter text is taken for granted, also while the text grows. -/
def maxByteSize : Nat := Nat.pow 2 63 - 1

/-- What a word of 64 bits cannot count. -/
def wordBound : Nat := Nat.pow 2 64

/-! ### Order -/

/-- The order by code points, a text before its extensions. -/
def compare : Text → Text → Ordering
  | [], [] => .eq
  | [], _ :: _ => .lt
  | _ :: _, [] => .gt
  | a :: s, b :: t => (Ord.compare a.toNat b.toNat).then (compare s t)

/-! ### Parts -/

/-- The parts between the marks `c`: always one more than there are marks. -/
def splitAt (c : Char) : Text → List Text
  | [] => [[]]
  | x :: t =>
    if x = c then [] :: splitAt c t
    else match splitAt c t with
      | [] => [[x]]
      | l :: ls => (x :: l) :: ls

/-- The parts put together again, with a mark `c` between neighbours. -/
def joinWith (c : Char) : List Text → Text
  | [] => []
  | [l] => l
  | l :: m :: ls => l ++ c :: joinWith c (m :: ls)

theorem splitAt_ne_nil (c : Char) (t : Text) : splitAt c t ≠ [] := by
  cases t with
  | nil => simp [splitAt]
  | cons x t =>
    rw [splitAt]
    split
    · simp
    · split <;> simp

/-- **Nothing is lost by splitting**: joining the parts gives the text back. -/
theorem joinWith_splitAt (c : Char) (t : Text) : joinWith c (splitAt c t) = t := by
  induction t with
  | nil => rfl
  | cons x t ih =>
    rw [splitAt]
    split
    · next h =>
      obtain ⟨l, ls, hl⟩ := List.exists_cons_of_ne_nil (splitAt_ne_nil c t)
      rw [hl] at ih ⊢
      simp [joinWith, ih, h]
    · split
      · next hl => exact absurd hl (splitAt_ne_nil c t)
      · next l ls hl =>
        rw [hl] at ih
        cases ls <;> simp [joinWith] at ih ⊢ <;> exact ih

/-- A part has no mark in it. -/
theorem notMem_of_mem_splitAt {c : Char} {t l : Text} (h : l ∈ splitAt c t) : c ∉ l := by
  induction t generalizing l with
  | nil => simp [splitAt] at h; simp [h]
  | cons x t ih =>
    rw [splitAt] at h
    split at h
    · rcases List.mem_cons.1 h with rfl | h
      · simp
      · exact ih h
    · next hx =>
      split at h
      · simp at h; simp [h]; exact fun e => hx e.symm
      · next m ms hm =>
        rcases List.mem_cons.1 h with rfl | h
        · have := ih (l := m) (by simp [hm])
          simp [this]; exact fun e => hx e.symm
        · exact ih (by simp [hm, h])

/-- A text without marks is its only part. -/
theorem splitAt_of_notMem {c : Char} {t : Text} (h : c ∉ t) : splitAt c t = [t] := by
  induction t with
  | nil => rfl
  | cons x t ih =>
    simp only [List.mem_cons, not_or] at h
    simp [splitAt, ih h.2, Ne.symm h.1]

/-- A mark ends the parts before it: nothing after it changes them. -/
theorem splitAt_append_cons (c : Char) (s t : Text) :
    splitAt c (s ++ c :: t) = splitAt c s ++ splitAt c t := by
  induction s with
  | nil => simp [splitAt]
  | cons x s ih =>
    obtain ⟨l, ls, hl⟩ := List.exists_cons_of_ne_nil (splitAt_ne_nil c s)
    by_cases h : x = c
    · simp [splitAt, h, ih]
    · simp [splitAt, h, ih, hl]

/-- Parts are joined to the first one by a mark. -/
theorem joinWith_cons {c : Char} {ls : List Text} (l : Text) (hne : ls ≠ []) :
    joinWith c (l :: ls) = l ++ c :: joinWith c ls := by
  obtain ⟨m, ms, rfl⟩ := List.exists_cons_of_ne_nil hne
  rfl

/-- A last part is joined to the others by a mark. -/
theorem joinWith_concat {c : Char} {ls : List Text} (hne : ls ≠ []) (l : Text) :
    joinWith c (ls ++ [l]) = joinWith c ls ++ c :: l := by
  induction ls with
  | nil => exact absurd rfl hne
  | cons m ls ih =>
    by_cases hls : ls = []
    · rw [hls]
      rfl
    · rw [List.cons_append, joinWith_cons m (by simp), ih hls, joinWith_cons m hls, List.append_assoc,
        List.cons_append]

/-- **Joining is undone by splitting** where no part has a mark in it. -/
theorem splitAt_joinWith {c : Char} {ls : List Text} (hne : ls ≠ []) (h : ∀ l ∈ ls, c ∉ l) :
    splitAt c (joinWith c ls) = ls := by
  induction ls with
  | nil => exact absurd rfl hne
  | cons l ls ih =>
    have hl : splitAt c l = [l] := splitAt_of_notMem (h l (by simp))
    by_cases hls : ls = []
    · rw [hls]
      exact hl
    · rw [joinWith_cons l hls, splitAt_append_cons, hl, ih hls fun m hm => h m (by simp [hm])]
      rfl

/-! ### Numbers -/

/-- The decimal digits of a number. -/
def ofNat (n : Nat) : Text := Nat.toDigits 10 n

end Text

end EditorScaffold
