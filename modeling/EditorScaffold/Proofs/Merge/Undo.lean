import EditorScaffold.Proofs.Merge.Repeated
import Mathlib.Data.Nat.Find

/-! # Undoing a merge

What was there before a merge can be told from the merged text, if it is known whether the import was
inserted (`merge_inj`). Appended text is cut off at the end. An inserted block is found again by the first
line that starts like the import (`isLeast_import_of_insert`): no line before the block starts so, and
inside the block that line stands at an offset that depends on the guard symbol only, whatever the symbol
holds. Without the flag the import could as well have been there before (`exists_merge_eq_of_inserted`). -/

namespace EditorScaffold.Merge

open Text

/-! ### The first import -/

theorem DeclaresAt.isLineStart {t : Text} {i : ℕ} (h : DeclaresAt t i) : IsLineStart t i := by
  obtain ⟨-, -, hstart, -⟩ := h
  exact hstart

/-- A guarded import has a first line that starts like the import. It depends on the guard symbol only. -/
theorem exists_isLeast_guardedImport (guardSymbol : Text) :
    ∃ k, ∀ t, IsLeast {i | StartsLine Editor.importStart (guardedImport guardSymbol ++ t) i} k := by
  obtain ⟨b, hb, himp⟩ : ∃ b, guardedImport guardSymbol = b ++ ['\n'] ∧ hasImport b.lines = true := by
    refine ⟨"#if ".toList ++ guardSymbol ++ '\n' :: (Editor.importStatement ++ '\n' :: "#endif".toList), ?_, ?_⟩
    · have h : "\n#endif\n".toList = '\n' :: "#endif".toList ++ ['\n'] := by decide
      unfold guardedImport
      rw [h]
      simp only [List.append_assoc, List.cons_append]
    · rw [lines_append_newline, lines_append_newline, hasImport_append, hasImport_append]
      have h : hasImport (lines Editor.importStatement) = true := by decide
      rw [h, Bool.true_or, Bool.or_true]
  classical
  have hne : ∃ i, StartsLine Editor.importStart b i := (hasImport_lines_iff b).1 himp
  refine ⟨Nat.find hne, fun t => ?_⟩
  rw [hb, List.append_assoc]
  exact isLeast_startsLine_append newline_notMem_importStart
    ⟨Nat.find_spec hne, fun i hi => Nat.find_min' hne hi⟩ t

/-- In a merged text with an inserted import, the first line that starts like the import is in the block. -/
theorem isLeast_import_of_insert {pre post guardSymbol : Text} {k : ℕ}
    (hno : hasImport (pre ++ post).lines = false) (hstart : IsLineStart (pre ++ post) pre.length)
    (hk : ∀ t, IsLeast {i | StartsLine Editor.importStart (guardedImport guardSymbol ++ t) i} k) (t : Text) :
    IsLeast {i | StartsLine Editor.importStart (pre ++ guardedImport guardSymbol ++ t) i} (pre.length + k) := by
  rcases hstart.eq_nil_or_concat with rfl | ⟨q, rfl⟩
  · simpa using hk t
  · have hq : ¬ ∃ i, StartsLine Editor.importStart q i := by
      intro h
      have hq := (hasImport_lines_iff q).2 h
      rw [List.append_assoc, List.singleton_append, lines_append_newline, hasImport_append, hq] at hno
      exact absurd hno (by simp)
    have := isLeast_startsLine_prepend newline_notMem_importStart hq (hk t)
    simpa using this

/-- **The place of an inserted import can be found again**: two texts without an import in which the block was
put where a line starts are equal if they have become equal. -/
theorem append_eq_of_insert_eq {pre₁ post₁ pre₂ post₂ guardSymbol : Text}
    (hno₁ : hasImport (pre₁ ++ post₁).lines = false) (hstart₁ : IsLineStart (pre₁ ++ post₁) pre₁.length)
    (hno₂ : hasImport (pre₂ ++ post₂).lines = false) (hstart₂ : IsLineStart (pre₂ ++ post₂) pre₂.length)
    (h : pre₁ ++ guardedImport guardSymbol ++ post₁ = pre₂ ++ guardedImport guardSymbol ++ post₂) :
    pre₁ ++ post₁ = pre₂ ++ post₂ := by
  obtain ⟨k, hk⟩ := exists_isLeast_guardedImport guardSymbol
  have hleast₁ := isLeast_import_of_insert hno₁ hstart₁ hk post₁
  have hleast₂ := isLeast_import_of_insert hno₂ hstart₂ hk post₂
  rw [h] at hleast₁
  have hlen : pre₁.length = pre₂.length := Nat.add_right_cancel (hleast₁.unique hleast₂)
  simp only [List.append_assoc] at h
  obtain ⟨rfl, hrest⟩ := List.append_inj h hlen
  rw [List.append_cancel_left hrest]

/-! ### Merges that give the same -/

/-- **A merge can be undone**: the existing text is determined by the merged text and the flag, for every
generated text and every guard symbol. -/
theorem merge_inj (e₁ e₂ generated guardSymbol : Text) :
    (merge e₁ generated guardSymbol).text = (merge e₂ generated guardSymbol).text ∧
        (merge e₁ generated guardSymbol).inserted = (merge e₂ generated guardSymbol).inserted ↔ e₁ = e₂ := by
  constructor
  · rintro ⟨htext, hflag⟩
    rcases merge_cases e₁ generated guardSymbol with ⟨h₁, -⟩ | ⟨hno₁, pre₁, post₁, rfl, hleast₁, h₁⟩ <;>
      rcases merge_cases e₂ generated guardSymbol with ⟨h₂, -⟩ | ⟨hno₂, pre₂, post₂, rfl, hleast₂, h₂⟩ <;>
      rw [h₁, h₂] at htext hflag
    · exact List.append_cancel_right htext
    · cases hflag
    · cases hflag
    · exact append_eq_of_insert_eq hno₁ hleast₁.1.isLineStart hno₂ hleast₂.1.isLineStart
        (List.append_cancel_right htext)
  · rintro rfl
    exact ⟨rfl, rfl⟩

/-- The flag is needed: whatever a merge inserts may also have been there before. -/
theorem exists_merge_eq_of_inserted {e generated guardSymbol : Text}
    (h : (merge e generated guardSymbol).inserted = true) :
    ∃ e', e' ≠ e ∧ merge e' generated guardSymbol = ⟨(merge e generated guardSymbol).text, false⟩ := by
  rcases merge_cases e generated guardSymbol with ⟨hm, -⟩ | ⟨-, pre, post, rfl, -, hm⟩
  · rw [hm] at h
    exact absurd h Bool.false_ne_true
  · refine ⟨pre ++ guardedImport guardSymbol ++ post, fun heq => ?_, ?_⟩
    · have hlen := congrArg List.length heq
      rw [guardedImport_eq] at hlen
      simp only [List.length_append] at hlen
      have hpos : 0 < "#if ".toList.length := by decide
      omega
    · rw [merge_of_hasImport (hasImport_lines_of_guardedImport pre guardSymbol post), hm]

end EditorScaffold.Merge
