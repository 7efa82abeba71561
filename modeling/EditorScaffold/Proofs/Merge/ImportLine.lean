import EditorScaffold.Proofs.Merge.Placement

/-! # The line that imports the framework

What a merge does to a text is told here by its lines. The import becomes three lines before the first declaration, if
it is inserted (`lines_merge_of_insertBlock?`), and it is wherever no line starts like an import of the framework
(`merge_imports_before_declaration`). A line that imports a part of the framework starts so too and counts as the
import, so that none is inserted beside it (`not_inserted_beside_scenes`). -/

namespace EditorScaffold.Merge

open Text

variable {existing : Text}

/-- The line declares something. -/
def Declares (l : Text) : Prop := ∃ p ∈ ["namespace".toList, "public".toList, "internal".toList], p <+: l

instance (l : Text) : Decidable (Declares l) := by unfold Declares; infer_instance

/-! ### Lines of lines -/

/-- Putting texts together as lines gives the lines of each of them. -/
theorem lines_unlines_flatMap {ls : List Text} (hne : ls ≠ []) : lines (unlines ls) = ls.flatMap lines := by
  induction ls with
  | nil => exact absurd rfl hne
  | cons l ls ih =>
    rw [List.flatMap_cons]
    by_cases hls : ls = []
    · rw [hls, List.flatMap_nil, List.append_nil]
      rfl
    · rw [unlines_cons l hls, lines_append_newline, ih hls]

theorem flatMap_lines_eq_self {ls : List Text} (h : ∀ l ∈ ls, '\n' ∉ l) : ls.flatMap lines = ls := by
  induction ls with
  | nil => rfl
  | cons l ls ih =>
    rw [List.flatMap_cons, lines_of_notMem (h l (by simp)), ih fun m hm => h m (by simp [hm])]
    rfl

theorem lines_guardedImport_append (guardSymbol : Text) {l : Text} (hl : '\n' ∉ l) :
    lines (guardedImport guardSymbol ++ l) =
      lines ("#if ".toList ++ guardSymbol) ++ ["using UnityEditor;".toList, "#endif".toList, l] := by
  have hcut : guardedImport guardSymbol ++ l = ("#if ".toList ++ guardSymbol) ++
      '\n' :: ("using UnityEditor;".toList ++ '\n' :: ("#endif".toList ++ '\n' :: l)) := by
    rw [guardedImport_eq]
    simp
  have himport : '\n' ∉ "using UnityEditor;".toList := by decide
  have hendif : '\n' ∉ "#endif".toList := by decide
  rw [hcut, lines_append_newline, lines_cut himport, lines_cut hendif, lines_of_notMem hl]

/-! ### Where the import stands -/

/-- A block is put before the first declaration. -/
theorem insertBlock?_eq_some {block : Text} {ls ms : List Text} (h : insertBlock? block ls = some ms) :
    ∃ before declaration after, ls = before ++ declaration :: after ∧ Declares declaration ∧
      (∀ l ∈ before, ¬ Declares l) ∧ ms = before ++ (block ++ declaration) :: after := by
  induction ls generalizing ms with
  | nil => cases h
  | cons l ls ih =>
    rw [insertBlock?_cons] at h
    split at h
    · next hd =>
      obtain rfl := Option.some.inj h
      exact ⟨[], l, ls, rfl, isDeclaration_iff.1 hd, by simp, rfl⟩
    · next hd =>
      obtain ⟨ns, hns, rfl⟩ := Option.map_eq_some_iff.1 h
      obtain ⟨before, declaration, after, rfl, hdeclares, hbefore, rfl⟩ := ih hns
      refine ⟨l :: before, declaration, after, rfl, hdeclares, fun m hm => ?_, rfl⟩
      rcases List.mem_cons.1 hm with rfl | hm
      · exact mt isDeclaration_iff.2 hd
      · exact hbefore m hm

theorem insertBlock?_ne_none {ls : List Text} (h : ∃ l ∈ ls, Declares l) (block : Text) :
    insertBlock? block ls ≠ none := by
  obtain ⟨l, hl, hd⟩ := h
  induction ls with
  | nil => cases hl
  | cons m ls ih =>
    rw [insertBlock?_cons]
    split
    · simp
    · next hm =>
      rcases List.mem_cons.1 hl with rfl | hl
      · exact absurd (isDeclaration_iff.2 hd) hm
      · simpa using ih hl

/-- **The import is inserted wherever it is due**: if a line declares something and none starts like an import of the
framework, then right before the first declaration there are the lines of the guard and of the import, and all other
lines are those of the existing text and of the generated one. -/
theorem merge_imports_before_declaration (hdeclares : ∃ l ∈ existing.lines, Declares l)
    (himports : ∀ l ∈ existing.lines, ¬ "using UnityEditor".toList <+: l) (generated guardSymbol : Text) :
    (merge existing generated guardSymbol).inserted = true ∧
      ∃ before declaration after, existing.lines = before ++ declaration :: after ∧ Declares declaration ∧
        (∀ l ∈ before, ¬ Declares l) ∧
        (merge existing generated guardSymbol).text.lines =
          before ++ lines ("#if ".toList ++ guardSymbol) ++
            ["using UnityEditor;".toList, "#endif".toList, declaration] ++ after ++ generated.lines := by
  have hno : hasImport existing.lines = false := by
    rw [← Bool.not_eq_true, hasImport_iff]
    rintro ⟨l, hl, hstart⟩
    exact himports l hl hstart
  obtain ⟨ms, hms⟩ := Option.ne_none_iff_exists'.1 (insertBlock?_ne_none hdeclares (guardedImport guardSymbol))
  have hmerge : merge existing generated guardSymbol = ⟨unlines ms ++ '\n' :: generated, true⟩ := by
    unfold merge insertImport
    rw [hno, hms]
    rfl
  obtain ⟨before, declaration, after, hlines, hdeclaration, hbefore, rfl⟩ := insertBlock?_eq_some hms
  have hnewline : ∀ l ∈ before ++ declaration :: after, '\n' ∉ l := fun l hl =>
    newline_notMem_of_mem_lines (hlines ▸ hl)
  refine ⟨by rw [hmerge], before, declaration, after, hlines, hdeclaration, hbefore, ?_⟩
  rw [hmerge, lines_append_newline, lines_unlines_flatMap (by simp), List.flatMap_append, List.flatMap_cons,
    flatMap_lines_eq_self fun l hl => hnewline l (by simp [hl]),
    lines_guardedImport_append guardSymbol (hnewline declaration (by simp)),
    flatMap_lines_eq_self fun l hl => hnewline l (by simp [hl])]
  simp only [List.append_assoc]

/-- A text that imports something else. -/
def engine : Text := "using UnityEngine;\npublic class Door \x7b\x7d\n".toList

/-- Other imports do not keep the import away. -/
theorem engine_imports_editor :
    (∃ l ∈ engine.lines, Declares l) ∧ (∀ l ∈ engine.lines, ¬ "using UnityEditor".toList <+: l) ∧
    (merge engine "// generated".toList "UNITY_EDITOR".toList).inserted = true := by
  have hdeclares : ∃ l ∈ engine.lines, Declares l := by decide
  have himports : ∀ l ∈ engine.lines, ¬ "using UnityEditor".toList <+: l := by decide
  exact ⟨hdeclares, himports, (merge_imports_before_declaration hdeclares himports _ _).1⟩

/-- A text that imports a part of the framework. -/
def scenes : Text := "using UnityEditor.SceneManagement;\npublic class Door \x7b\x7d\n".toList

/-- **An import of a part of the framework counts as the import**: nothing is inserted, although no line of the text
starts with the import statement, and none of the merged text does. -/
theorem not_inserted_beside_scenes :
    (∃ l ∈ scenes.lines, Declares l) ∧ (∀ l ∈ scenes.lines, ¬ "using UnityEditor;".toList <+: l) ∧
    (merge scenes "// generated".toList "UNITY_EDITOR".toList).inserted = false ∧
    "using UnityEditor;".toList ∉ (merge scenes "// generated".toList "UNITY_EDITOR".toList).text.lines := by
  decide

end EditorScaffold.Merge
