import EditorScaffold.Text.LowerCase

/-! # Words

Identifiers are made of letters, digits and underscores. Among the characters beyond ASCII no letters are told
apart here: all of them count (`isWord`), so that a word may be any identifier. Lower case does not leave the
words, and no control character comes from it (`mem_lowerChar`). -/

namespace EditorScaffold.Text

/-- Whether a character may stand in an identifier: a letter, a digit, an underscore, or any character beyond
ASCII. -/
def isWord (c : Char) : Bool := c.isAlphanum || c == '_' || 128 ≤ c.toNat

/-- Every run of lower case letters is one of ASCII letters, or one of characters beyond ASCII. -/
theorem target_of_mem_lowerRuns : ∀ run ∈ lowerRuns,
    (97 ≤ run.2.2.2 ∧ run.2.2.2 + (run.2.1 - run.1) ≤ 122) ∨
      128 ≤ run.2.2.2 ∧ (run.2.2.2 + (run.2.1 - run.1) < 0xd800 ∨
        0xdfff < run.2.2.2 ∧ run.2.2.2 + (run.2.1 - run.1) < 0x110000) := by
  decide +kernel

theorem toNat_ofNat_of_isValidChar {n : Nat} (h : n.isValidChar) : (Char.ofNat n).toNat = n := by
  rw [Char.ofNat, dif_pos h]
  rfl

theorem mem_lowerChar {c d : Char} (h : d ∈ lowerChar c) :
    d = c ∨ (97 ≤ d.toNat ∧ d.toNat ≤ 122) ∨ 128 ≤ d.toNat := by
  rw [lowerChar] at h
  split at h
  · right
    rcases List.mem_cons.1 h with rfl | h
    · decide
    · rw [List.mem_singleton.1 h]
      decide
  · split at h
    · next l hl =>
      right
      obtain ⟨⟨first, last, step, target⟩, hmem, hrun⟩ := List.exists_of_findSome?_eq_some hl
      have htarget := target_of_mem_lowerRuns _ hmem
      simp only [lowerInRun, Option.ite_none_right_eq_some, Option.some.injEq] at hrun htarget
      obtain ⟨⟨hfirst, hlast, -⟩, rfl⟩ := hrun
      have hvalid : (target + (c.toNat - first)).isValidChar := by
        rw [Nat.isValidChar]
        omega
      rw [List.mem_singleton.1 h, toNat_ofNat_of_isValidChar hvalid]
      omega
    · left
      exact List.mem_singleton.1 h

theorem mem_lowerFirst {t : Text} {d : Char} (h : d ∈ lowerFirst t) :
    d ∈ t ∨ (97 ≤ d.toNat ∧ d.toNat ≤ 122) ∨ 128 ≤ d.toNat := by
  cases t with
  | nil => cases h
  | cons c t =>
    rcases List.mem_append.1 h with h | h
    · exact (mem_lowerChar h).imp_left fun hd => List.mem_cons.2 (Or.inl hd)
    · exact Or.inl (List.mem_cons_of_mem c h)

/-- Lower case brings in no ASCII character but lower case letters. -/
theorem notMem_lowerFirst {t : Text} {c : Char} (hc : c.toNat < 97 ∨ 122 < c.toNat ∧ c.toNat < 128) (h : c ∉ t) :
    c ∉ lowerFirst t := fun hmem =>
  (mem_lowerFirst hmem).elim h (by omega)

/-- **The lower case of a word is a word.** -/
theorem isWord_of_mem_lowerFirst {t : Text} (h : ∀ c ∈ t, isWord c = true) {d : Char} (hd : d ∈ lowerFirst t) :
    isWord d = true := by
  rcases mem_lowerFirst hd with hd | hd | hd
  · exact h d hd
  · have hfirst : 'a'.val ≤ d.val := UInt32.le_iff_toNat_le.2 hd.1
    have hlast : d.val ≤ 'z'.val := UInt32.le_iff_toNat_le.2 hd.2
    have hlower : d.isLower = true := Bool.and_eq_true_iff.2 ⟨decide_eq_true hfirst, decide_eq_true hlast⟩
    have halphanum : d.isAlphanum = true := Bool.or_eq_true_iff.2 (Or.inl (Bool.or_eq_true_iff.2 (Or.inr hlower)))
    simp [isWord, halphanum]
  · simp [isWord, hd]

end EditorScaffold.Text
