import EditorScaffold.Proofs.Merge.Placement

/-! # Repeated merges

Texts are merged one after the other into what the merges before made of an existing text. An inserted
block is one string in front of a line, but the next merge cuts the text anew and sees the import in it as a
line (`hasImport_lines_of_guardedImport`). From then on nothing is inserted: appending keeps all lines there
are. -/

namespace EditorScaffold.Merge

open Text

/-- The results of merging texts with their guard symbols, each into the text of the result before. -/
def mergeAll (t : Text) : List (Text × Text) → List Merged
  | [] => []
  | (generated, guardSymbol) :: jobs =>
    merge t generated guardSymbol :: mergeAll (merge t generated guardSymbol).text jobs

/-- The text at the start and after each merge. -/
def versions (t : Text) (jobs : List (Text × Text)) : List Text := t :: (mergeAll t jobs).map (·.text)

theorem versions_cons (t generated guardSymbol : Text) (jobs : List (Text × Text)) :
    versions t ((generated, guardSymbol) :: jobs) =
      t :: versions (merge t generated guardSymbol).text jobs := rfl

/-! ### One merge -/

/-- An inserted import is a line of its own when the text is cut again, whatever is around it. -/
theorem hasImport_lines_of_guardedImport (pre guardSymbol post : Text) :
    hasImport (lines (pre ++ guardedImport guardSymbol ++ post)) = true := by
  have h : pre ++ guardedImport guardSymbol ++ post =
      (pre ++ "#if ".toList ++ guardSymbol) ++
        '\n' :: (Editor.importStatement ++ '\n' :: ("#endif\n".toList ++ post)) := by
    unfold guardedImport
    simp only [List.append_assoc, List.cons_append]
    rfl
  have hline : '\n' ∉ Editor.importStatement := by decide
  rw [h, lines_append_newline, lines_cut hline, hasImport_iff]
  refine ⟨Editor.importStatement, ?_, List.prefix_append _ _⟩
  exact List.mem_append_right _ List.mem_cons_self

theorem hasImport_lines_append_newline {s : Text} (h : hasImport (lines s) = true) (t : Text) :
    hasImport (lines (s ++ '\n' :: t)) = true := by
  rw [lines_append_newline, hasImport_append, h, Bool.true_or]

/-- **A merge keeps imports.** -/
theorem hasImport_merge {t : Text} (h : hasImport t.lines = true) (generated guardSymbol : Text) :
    hasImport (merge t generated guardSymbol).text.lines = true := by
  rw [merge_of_hasImport h]
  exact hasImport_lines_append_newline h generated

/-- **A merge that inserts leaves an import behind.** -/
theorem hasImport_merge_of_inserted {t generated guardSymbol : Text}
    (h : (merge t generated guardSymbol).inserted = true) :
    hasImport (merge t generated guardSymbol).text.lines = true := by
  rcases merge_cases t generated guardSymbol with ⟨hm, -⟩ | ⟨-, pre, post, -, -, hm⟩
  · rw [hm] at h
    exact absurd h Bool.false_ne_true
  · rw [hm]
    exact hasImport_lines_append_newline (hasImport_lines_of_guardedImport pre guardSymbol post) generated

/-- **A merge keeps the imports of what it appends.** -/
theorem hasImport_merge_text (t : Text) {generated : Text} (h : hasImport generated.lines = true)
    (guardSymbol : Text) : hasImport (merge t generated guardSymbol).text.lines = true := by
  obtain ⟨s, hs⟩ : ∃ s, (merge t generated guardSymbol).text = s ++ '\n' :: generated := ⟨_, rfl⟩
  rw [hs, lines_append_newline, hasImport_append, h, Bool.or_true]

/-! ### A whole run -/

/-- A run from a text that imports the framework inserts nothing, and every text of it imports. -/
theorem mergeAll_of_hasImport {t : Text} (h : hasImport t.lines = true) (jobs : List (Text × Text)) :
    (∀ v ∈ versions t jobs, hasImport v.lines = true) ∧ ∀ m ∈ mergeAll t jobs, m.inserted = false := by
  induction jobs generalizing t with
  | nil =>
    refine ⟨fun v hv => ?_, fun m hm => absurd hm List.not_mem_nil⟩
    rw [List.mem_singleton.1 hv]
    exact h
  | cons job jobs ih =>
    obtain ⟨generated, guardSymbol⟩ := job
    obtain ⟨hvs, hms⟩ := ih (hasImport_merge h generated guardSymbol)
    refine ⟨fun v hv => ?_, fun m hm => ?_⟩
    · rw [versions_cons] at hv
      rcases List.mem_cons.1 hv with rfl | hv
      · exact h
      · exact hvs v hv
    · rcases List.mem_cons.1 hm with rfl | hm
      · rw [merge_of_hasImport h]
      · exact hms m hm

theorem countP_inserted_eq_zero {t : Text} (h : hasImport t.lines = true) (jobs : List (Text × Text)) :
    (mergeAll t jobs).countP (·.inserted) = 0 := by
  rw [List.countP_eq_zero]
  intro m hm
  rw [(mergeAll_of_hasImport h jobs).2 m hm]
  exact Bool.false_ne_true

theorem countP_inserted_le_one (t : Text) (jobs : List (Text × Text)) :
    (mergeAll t jobs).countP (·.inserted) ≤ 1 := by
  induction jobs generalizing t with
  | nil => exact Nat.zero_le 1
  | cons job jobs ih =>
    obtain ⟨generated, guardSymbol⟩ := job
    rw [mergeAll, List.countP_cons]
    by_cases h : (merge t generated guardSymbol).inserted = true
    · rw [countP_inserted_eq_zero (hasImport_merge_of_inserted h), if_pos h]
    · rw [if_neg h]
      exact ih _

/-- From a version that imports the framework on, every version does, and nothing is inserted. -/
theorem mergeAll_from_hasImport (t : Text) (jobs : List (Text × Text)) (i : ℕ) (u : Text)
    (hu : (versions t jobs)[i]? = some u) (himp : hasImport u.lines = true) :
    (∀ j v, i ≤ j → (versions t jobs)[j]? = some v → hasImport v.lines = true) ∧
      ∀ j m, i ≤ j → (mergeAll t jobs)[j]? = some m → m.inserted = false := by
  induction i generalizing t jobs with
  | zero =>
    obtain rfl : t = u := Option.some.inj hu
    obtain ⟨hvs, hms⟩ := mergeAll_of_hasImport himp jobs
    exact ⟨fun j v _ hv => hvs v (List.mem_of_getElem? hv), fun j m _ hm => hms m (List.mem_of_getElem? hm)⟩
  | succ i ih =>
    cases jobs with
    | nil => simp [versions, mergeAll] at hu
    | cons job jobs =>
      obtain ⟨generated, guardSymbol⟩ := job
      rw [versions_cons, List.getElem?_cons_succ] at hu
      obtain ⟨hvs, hms⟩ := ih _ jobs hu
      refine ⟨fun j v hj hv => ?_, fun j m hj hm => ?_⟩
      · obtain ⟨j, rfl⟩ := Nat.exists_eq_add_of_le' (Nat.one_le_of_lt hj)
        rw [versions_cons, List.getElem?_cons_succ] at hv
        exact hvs j v (Nat.le_of_succ_le_succ hj) hv
      · obtain ⟨j, rfl⟩ := Nat.exists_eq_add_of_le' (Nat.one_le_of_lt hj)
        rw [mergeAll, List.getElem?_cons_succ] at hm
        exact hms j m (Nat.le_of_succ_le_succ hj) hm

/-- **At most one merge of a run inserts the import**, whatever is merged under whatever guard symbols. Once
a line of some version starts like the import, a line of every later version does, and no later merge
inserts. -/
theorem mergeAll_inserts_at_most_once (t : Text) (jobs : List (Text × Text)) :
    (mergeAll t jobs).countP (·.inserted) ≤ 1 ∧
      ∀ (i : ℕ) (u : Text), (versions t jobs)[i]? = some u →
        (∃ l ∈ u.lines, "using UnityEditor".toList <+: l) →
          (∀ (j : ℕ) (v : Text), i ≤ j → (versions t jobs)[j]? = some v →
            ∃ l ∈ v.lines, "using UnityEditor".toList <+: l) ∧
          ∀ (j : ℕ) (m : Merged), i ≤ j → (mergeAll t jobs)[j]? = some m → m.inserted = false := by
  refine ⟨countP_inserted_le_one t jobs, fun i u hu himp => ?_⟩
  obtain ⟨hvs, hms⟩ := mergeAll_from_hasImport t jobs i u hu (hasImport_iff.2 himp)
  exact ⟨fun j v hj hv => hasImport_iff.1 (hvs j v hj hv), hms⟩

end EditorScaffold.Merge
