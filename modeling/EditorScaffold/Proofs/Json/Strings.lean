import EditorScaffold.Proofs.Json.Reading

/-! # Strings are read back

A character is written in a string as itself, or as one of three escapes (`escapeChar_cases`). Each of them is read
back as the character by one step (`reads_stringStep`), and is skipped by one step where the string does not matter
(`reads_skipStringStep`); a whole string follows by induction on its characters (`reads_string`, `reads_skipString`). -/

namespace EditorScaffold.Json.Reader

variable {c e : Char} {s : Text}

/-! ### Escapes -/

/-- **What stands for a character in a string**: a letter after a backslash, four hexadecimal digits after a backslash
for the other control characters, or the character itself. -/
theorem escapeChar_cases (c : Char) :
    (∃ e, simpleEscape? e = some c ∧ escapeChar c = ['\\', e]) ∨
    (c.toNat < 32 ∧ escapeChar c = '\\' :: 'u' :: '0' :: '0' :: hexPair c.toNat) ∨
    (c ≠ '"' ∧ c ≠ '\\' ∧ 32 ≤ c.toNat ∧ escapeChar c = [c]) := by
  unfold escapeChar
  split
  · next h => exact Or.inl ⟨c, by obtain rfl | rfl := h <;> rfl, rfl⟩
  next hquote =>
  split
  · next h => exact Or.inl ⟨'b', by rw [h]; rfl, rfl⟩
  split
  · next h => exact Or.inl ⟨'f', by rw [h]; rfl, rfl⟩
  split
  · next h => exact Or.inl ⟨'n', by rw [h]; rfl, rfl⟩
  split
  · next h => exact Or.inl ⟨'r', by rw [h]; rfl, rfl⟩
  split
  · next h => exact Or.inl ⟨'t', by rw [h]; rfl, rfl⟩
  split
  · next h => exact Or.inr (Or.inl ⟨h, rfl⟩)
  · next h =>
    rw [not_or] at hquote
    exact Or.inr (Or.inr ⟨hquote.1, hquote.2, Nat.le_of_not_lt h, rfl⟩)

theorem escapeChar_ne_nil (c : Char) : escapeChar c ≠ [] := by
  obtain ⟨e, -, h⟩ | ⟨-, h⟩ | ⟨-, -, -, h⟩ := escapeChar_cases c <;> simp [h]

/-- The digits of a control character. -/
theorem mapM_hexValue?_hexPair : ∀ n < 32,
    ('0' :: '0' :: hexPair n).mapM hexValue? = some [0, 0, n / 16, n % 16] := by
  decide

theorem reads_hexWord {n : Nat} (hn : n < 32) (s : Text) :
    Reads hexWord ('0' :: '0' :: (hexPair n ++ s)) n s := by
  intro o
  have htake : ('0' :: '0' :: (hexPair n ++ s)).take 4 = '0' :: '0' :: hexPair n := rfl
  have hvalue : ((0 * 16 + 0) * 16 + n / 16) * 16 + n % 16 = n := by omega
  refine ⟨((⟨'0' :: '0' :: (hexPair n ++ s), o⟩ : Cursor).advance 4).offset, ?_⟩
  unfold hexWord
  dsimp only
  rw [htake, mapM_hexValue?_hexPair n hn]
  dsimp only
  rw [hvalue]
  rfl

theorem reads_hexChar (hc : c.toNat < 32) (s : Text) :
    Reads hexChar ('0' :: '0' :: (hexPair c.toNat ++ s)) c s := by
  have hlow : isLowSurrogate c.toNat = false := by
    rw [isLowSurrogate, decide_eq_false (by omega)]
    rfl
  have hhigh : isHighSurrogate c.toNat = false := by
    rw [isHighSurrogate, decide_eq_false (by omega)]
    rfl
  refine (reads_hexWord hc s).bind ?_
  rw [hlow, hhigh, Char.ofNat_toNat]
  exact .pure c s

theorem reads_escape (h : simpleEscape? e = some c) (s : Text) : Reads escape (e :: s) c s := by
  refine (reads_peek? _).bind ?_
  split
  · next h' => cases h'
  · next h' =>
    obtain rfl := Option.some.inj h'
    cases h
  · next h' =>
    obtain rfl := Option.some.inj h'
    rw [h]
    exact (reads_skip e s).then (.pure c s)

theorem reads_skipEscape (h : simpleEscape? e = some c) (s : Text) : Reads skipEscape (e :: s) () s := by
  refine (reads_peek? _).bind ?_
  split
  · next h' => cases h'
  · next h' =>
    obtain rfl := Option.some.inj h'
    cases h
  · next h' =>
    obtain rfl := Option.some.inj h'
    rw [h]
    exact reads_skip e s

/-! ### One character -/

/-- **A character is read back** from what stands for it. -/
theorem reads_stringStep (read : Text) (c : Char) (s : Text) :
    Reads (stringStep read) (escapeChar c ++ s) (.inl (c :: read)) s := by
  obtain ⟨e, he, hc⟩ | ⟨hlt, hc⟩ | ⟨hquote, hback, hle, hc⟩ := escapeChar_cases c <;> rw [hc]
  · exact (reads_peek? _).bind ((reads_skip '\\' _).bind ((reads_escape he s).bind (.pure _ s)))
  · refine (reads_peek? _).bind ((reads_skip '\\' _).bind (Reads.bind ?_ (.pure _ s)))
    exact (reads_peek? _).bind ((reads_skip 'u' _).then (reads_hexChar hlt s))
  · refine (reads_peek? _).bind ?_
    split
    · next h => cases h
    · next h => exact absurd (Option.some.inj h) hquote
    · next h => exact absurd (Option.some.inj h) hback
    · next h =>
      obtain rfl := Option.some.inj h
      rw [if_neg (Nat.not_lt.2 hle)]
      exact (reads_skip c s).then (.pure _ s)

/-- A character is skipped where it does not matter. -/
theorem reads_skipStringStep (c : Char) (s : Text) :
    Reads (skipStringStep ()) (escapeChar c ++ s) (.inl ()) s := by
  obtain ⟨e, he, hc⟩ | ⟨hlt, hc⟩ | ⟨hquote, hback, hle, hc⟩ := escapeChar_cases c <;> rw [hc]
  · exact (reads_peek? _).bind (((reads_skip '\\' _).then (reads_skipEscape he s)).then (.pure _ s))
  · have hskip : Reads skipEscape ('u' :: '0' :: '0' :: (hexPair c.toNat ++ s)) () s :=
      (reads_peek? _).bind ((reads_skip 'u' _).then ((reads_hexWord hlt s).map _))
    exact (reads_peek? _).bind (((reads_skip '\\' _).then hskip).then (.pure _ s))
  · refine (reads_peek? _).bind ?_
    split
    · next h => cases h
    · next h => exact absurd (Option.some.inj h) hquote
    · next h => exact absurd (Option.some.inj h) hback
    · next h =>
      obtain rfl := Option.some.inj h
      rw [if_neg (Nat.not_lt.2 hle)]
      exact (reads_skip c s).then (.pure _ s)

/-! ### Whole strings -/

theorem length_lt_escapeChar (c : Char) (s : Text) : s.length < (escapeChar c ++ s).length := by
  have := List.length_pos_iff.2 (escapeChar_ne_nil c)
  rw [List.length_append]
  omega

theorem loops_stringStep (t read s : Text) :
    Loops stringStep read (t.flatMap escapeChar ++ '"' :: s) (read.reverse ++ t) s := by
  induction t generalizing read with
  | nil =>
    rw [List.append_nil]
    exact .stop ((reads_peek? _).bind ((reads_skip '"' s).then (.pure _ s)))
  | cons c t ih =>
    have hread : read.reverse ++ c :: t = (c :: read).reverse ++ t := by simp
    rw [List.flatMap_cons, List.append_assoc, hread]
    exact .next (reads_stringStep read c _) (length_lt_escapeChar c _) (ih (c :: read))

theorem loops_skipStringStep (t s : Text) :
    Loops skipStringStep () (t.flatMap escapeChar ++ '"' :: s) () s := by
  induction t with
  | nil => exact .stop ((reads_peek? _).bind ((reads_skip '"' s).then (.pure _ s)))
  | cons c t ih =>
    rw [List.flatMap_cons, List.append_assoc]
    exact .next (reads_skipStringStep c _) (length_lt_escapeChar c _) ih

/-- **A string is read back** after the quote that opens it. -/
theorem reads_string (t s : Text) : Reads string (t.flatMap escapeChar ++ '"' :: s) t s :=
  (loops_stringStep t [] s).reads

theorem reads_skipString (t s : Text) : Reads skipString (t.flatMap escapeChar ++ '"' :: s) () s :=
  (loops_skipStringStep t s).reads

end EditorScaffold.Json.Reader
