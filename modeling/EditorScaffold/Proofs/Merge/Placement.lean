import EditorScaffold.Merge
import EditorScaffold.Proofs.Text.LineStart

/-! # Where the import is put

A merge leaves the existing text as it is, or puts the guarded import at the first offset where a line
starts with a declaration (`merge_cases`). The lines that the merge works on are told here by offsets into
the existing text, so that what comes before and after the import can be read off
(`merge_inserts_at_first_declaration`). -/

namespace EditorScaffold.Merge

open Text

/-- A line that declares something starts at the offset `i`. -/
def DeclaresAt (t : Text) (i : ℕ) : Prop :=
  ∃ p ∈ ["namespace".toList, "public".toList, "internal".toList], StartsLine p t i

/-! ### Lines and offsets -/

theorem newline_notMem_importStart : '\n' ∉ Editor.importStart := by decide

theorem isImport_iff {l : Text} : isImport l = true ↔ Editor.importStart <+: l := List.isPrefixOf_iff_prefix

theorem hasImport_iff {ls : List Text} :
    hasImport ls = true ↔ ∃ l ∈ ls, Editor.importStart <+: l := by
  simp [hasImport, isImport_iff]

theorem hasImport_append (ks ls : List Text) : hasImport (ks ++ ls) = (hasImport ks || hasImport ls) := by
  simp [hasImport]

/-- A text imports the framework if and only if one of its lines starts like the import. -/
theorem hasImport_lines_iff (t : Text) :
    hasImport t.lines = true ↔ ∃ i, StartsLine "using UnityEditor".toList t i := by
  rw [hasImport_iff, ← exists_startsLine_iff newline_notMem_importStart]
  rfl

theorem isDeclaration_iff {l : Text} :
    isDeclaration l = true ↔ ∃ p ∈ ["namespace".toList, "public".toList, "internal".toList], p <+: l := by
  simp [isDeclaration, declarationStarts]

theorem newline_notMem_of_mem_declarationStarts {p : Text}
    (hp : p ∈ ["namespace".toList, "public".toList, "internal".toList]) : '\n' ∉ p := by
  revert p
  decide

theorem declaresAt_of_notMem {l : Text} (hl : '\n' ∉ l) {i : ℕ} :
    DeclaresAt l i ↔ i = 0 ∧ isDeclaration l = true := by
  unfold DeclaresAt
  rw [isDeclaration_iff]
  constructor
  · rintro ⟨p, hp, hs⟩
    obtain ⟨rfl, h⟩ := (startsLine_of_notMem hl).1 hs
    exact ⟨rfl, p, hp, h⟩
  · rintro ⟨rfl, p, hp, h⟩
    exact ⟨p, hp, (startsLine_of_notMem hl).2 ⟨rfl, h⟩⟩

theorem declaresAt_cut {l t : Text} (hl : '\n' ∉ l) {i : ℕ} :
    DeclaresAt (l ++ '\n' :: t) i ↔
      i = 0 ∧ isDeclaration l = true ∨ ∃ k, i = l.length + 1 + k ∧ DeclaresAt t k := by
  unfold DeclaresAt
  rw [isDeclaration_iff]
  constructor
  · rintro ⟨p, hp, hs⟩
    rcases (startsLine_cut (newline_notMem_of_mem_declarationStarts hp) hl).1 hs with
      ⟨rfl, h⟩ | ⟨k, rfl, h⟩
    · exact Or.inl ⟨rfl, p, hp, h⟩
    · exact Or.inr ⟨k, rfl, p, hp, h⟩
  · rintro (⟨rfl, p, hp, h⟩ | ⟨k, rfl, p, hp, h⟩)
    · exact ⟨p, hp, (startsLine_cut (newline_notMem_of_mem_declarationStarts hp) hl).2 (Or.inl ⟨rfl, h⟩)⟩
    · exact ⟨p, hp, (startsLine_cut (newline_notMem_of_mem_declarationStarts hp) hl).2
        (Or.inr ⟨k, rfl, h⟩)⟩

/-! ### The block among the lines -/

theorem insertBlock?_cons (block l : Text) (ls : List Text) :
    insertBlock? block (l :: ls) =
      if isDeclaration l then some ((block ++ l) :: ls) else (insertBlock? block ls).map (l :: ·) := rfl

theorem insertBlock?_eq_none_iff (block : Text) (t : Text) :
    insertBlock? block t.lines = none ↔ ∀ i, ¬ DeclaresAt t i := by
  induction t using lines_induction with
  | last l hl =>
    rw [lines_of_notMem hl, insertBlock?_cons]
    by_cases hd : isDeclaration l = true
    · simp [hd, declaresAt_of_notMem hl]
    · simp [hd, declaresAt_of_notMem hl, insertBlock?]
  | cut l t hl ih =>
    rw [lines_cut hl, insertBlock?_cons]
    by_cases hd : isDeclaration l = true
    · simp only [hd, if_true, reduceCtorEq, false_iff, not_forall, not_not]
      exact ⟨0, (declaresAt_cut hl).2 (Or.inl ⟨rfl, hd⟩)⟩
    · rw [if_neg hd, Option.map_eq_none_iff, ih]
      constructor
      · intro h i hi
        rcases (declaresAt_cut hl).1 hi with ⟨-, hd'⟩ | ⟨k, -, hk⟩
        · exact hd hd'
        · exact h k hk
      · intro h k hk
        exact h _ ((declaresAt_cut hl).2 (Or.inr ⟨k, rfl, hk⟩))

/-- **The block goes where the first declaration starts**: the lines with the block in them, put together
again, are the text cut at that offset with the block in between. -/
theorem unlines_insertBlock? {block t : Text} {ms : List Text} (h : insertBlock? block t.lines = some ms) :
    ∃ pre post, t = pre ++ post ∧ IsLeast {i | DeclaresAt t i} pre.length ∧
      unlines ms = pre ++ block ++ post := by
  induction t using lines_induction generalizing ms with
  | last l hl =>
    rw [lines_of_notMem hl, insertBlock?_cons] at h
    split at h
    · next hd =>
      obtain rfl := Option.some.inj h
      refine ⟨[], l, rfl, ⟨(declaresAt_of_notMem hl).2 ⟨rfl, hd⟩, fun i _ => Nat.zero_le i⟩, rfl⟩
    · simp [insertBlock?] at h
  | cut l t hl ih =>
    rw [lines_cut hl, insertBlock?_cons] at h
    split at h
    · next hd =>
      obtain rfl := Option.some.inj h
      refine ⟨[], l ++ '\n' :: t, rfl, ⟨(declaresAt_cut hl).2 (Or.inl ⟨rfl, hd⟩), fun i _ => Nat.zero_le i⟩, ?_⟩
      rw [unlines_cons _ (lines_ne_nil t), unlines_lines]
      simp
    · next hd =>
      obtain ⟨ns, hns, rfl⟩ := Option.map_eq_some_iff.1 h
      obtain ⟨pre, post, rfl, ⟨hat, hleast⟩, hms⟩ := ih hns
      have hlen : (l ++ '\n' :: pre).length = l.length + 1 + pre.length := by
        rw [List.length_append, List.length_cons]; omega
      have hne : ns ≠ [] := by
        intro hnil
        have := length_insertBlock? hns
        exact lines_ne_nil _ (List.length_eq_zero_iff.1 (by rw [← this, hnil]; rfl))
      refine ⟨l ++ '\n' :: pre, post, by simp, ⟨?_, fun i hi => ?_⟩, ?_⟩
      · exact (declaresAt_cut hl).2 (Or.inr ⟨pre.length, hlen, hat⟩)
      · rcases (declaresAt_cut hl).1 hi with ⟨-, hd'⟩ | ⟨k, rfl, hk⟩
        · exact absurd hd' hd
        · have : pre.length ≤ k := hleast hk
          omega
      · rw [unlines_cons _ hne, hms]
        simp

/-! ### The merge -/

theorem guardedImport_eq (guardSymbol : Text) :
    guardedImport guardSymbol =
      "#if ".toList ++ guardSymbol ++ "\nusing UnityEditor;\n#endif\n".toList := by
  have h : '\n' :: Editor.importStatement ++ "\n#endif\n".toList =
      "\nusing UnityEditor;\n#endif\n".toList := by decide
  unfold guardedImport
  rw [← h]
  simp only [List.append_assoc, List.cons_append]

theorem merge_of_hasImport {existing : Text} (h : hasImport existing.lines = true)
    (generated guardSymbol : Text) :
    merge existing generated guardSymbol = ⟨existing ++ '\n' :: generated, false⟩ := by
  simp [merge, insertImport, h]

/-- **What a merge does**: it appends to the existing text as it is, which imports the framework or
declares nothing, or to the existing text with the import where the first declaration starts. -/
theorem merge_cases (existing generated guardSymbol : Text) :
    (merge existing generated guardSymbol = ⟨existing ++ '\n' :: generated, false⟩ ∧
      (hasImport existing.lines = true ∨ ∀ i, ¬ DeclaresAt existing i)) ∨
    (hasImport existing.lines = false ∧
      ∃ pre post, existing = pre ++ post ∧ IsLeast {i | DeclaresAt existing i} pre.length ∧
        merge existing generated guardSymbol =
          ⟨pre ++ guardedImport guardSymbol ++ post ++ '\n' :: generated, true⟩) := by
  by_cases hi : hasImport existing.lines = true
  · exact Or.inl ⟨merge_of_hasImport hi generated guardSymbol, Or.inl hi⟩
  · cases hb : insertBlock? (guardedImport guardSymbol) existing.lines with
    | none =>
      refine Or.inl ⟨?_, Or.inr ((insertBlock?_eq_none_iff _ _).1 hb)⟩
      unfold merge insertImport
      rw [if_neg hi, hb]
      simp only [unlines_lines]
    | some ms =>
      obtain ⟨pre, post, he, hleast, hms⟩ := unlines_insertBlock? hb
      refine Or.inr ⟨Bool.eq_false_iff.2 hi, pre, post, he, hleast, ?_⟩
      unfold merge insertImport
      rw [if_neg hi, hb]
      simp only [hms]

/-- **The import is inserted exactly where it is due.** It is inserted if and only if no line of the
existing text starts like the import and some line starts with a declaration. Then it stands where the first
such line starts, and all else is the existing text, a newline and the generated text. -/
theorem merge_inserts_at_first_declaration (existing generated guardSymbol : Text) :
    ((merge existing generated guardSymbol).inserted = true ↔
      (¬ ∃ i, StartsLine "using UnityEditor".toList existing i) ∧ ∃ i, DeclaresAt existing i) ∧
    ((merge existing generated guardSymbol).inserted = false →
      (merge existing generated guardSymbol).text = existing ++ '\n' :: generated) ∧
    ((merge existing generated guardSymbol).inserted = true →
      ∃ pre post, existing = pre ++ post ∧ IsLeast {i | DeclaresAt existing i} pre.length ∧
        (merge existing generated guardSymbol).text =
          pre ++ "#if ".toList ++ guardSymbol ++ "\nusing UnityEditor;\n#endif\n".toList ++ post ++
            '\n' :: generated) := by
  rw [← hasImport_lines_iff]
  rcases merge_cases existing generated guardSymbol with ⟨hm, hwhy⟩ | ⟨hi, pre, post, he, hleast, hm⟩
  · simp only [hm, Bool.false_eq_true, false_iff, forall_true_left, false_implies, and_true]
    rintro ⟨hno, i, hd⟩
    rcases hwhy with hi | hd'
    · exact hno hi
    · exact hd' i hd
  · simp only [hm, hi, Bool.false_eq_true, not_false_eq_true, true_and, true_iff, forall_true_left,
      Bool.true_eq_false, false_implies]
    refine ⟨⟨pre.length, hleast.1⟩, pre, post, he, hleast, ?_⟩
    rw [guardedImport_eq]
    simp only [List.append_assoc]

end EditorScaffold.Merge
