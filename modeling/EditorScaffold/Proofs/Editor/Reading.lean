import EditorScaffold.Proofs.Editor.Lines
import EditorScaffold.Proofs.Text.Statement

/-! # Reading the statements of an editor

A statement is read by the words that it starts and ends with, and by the word that stands first in it: as the
declaration of a member (`member?`) or of a handle (`handle?`), as an assignment (`assignment?`) or a binding
(`binding?`), or as a draw (`draw?`). What each reader finds in each statement of an editor is told here; that a
statement which binds is not read as anything else needs the name of its handle to be a word, because that is
what it starts with (`eq_of_trimStart_bindLine`). -/

namespace EditorScaffold.EditorRequest

open Text

variable {r : EditorRequest} {l w x y : Text}

/-! ### Readers of statements -/

/-- The handle that a line declares: `private SerializedProperty X;`. -/
def handle? (l : Text) : Option Text := between? "private SerializedProperty ".toList ";".toList l

/-- The handle that a line draws, and whether with its elements: `EditorGUILayout.PropertyField(X);` or
`EditorGUILayout.PropertyField(X, true);`. -/
def draw? (l : Text) : Option (Text × Bool) :=
  match between? "EditorGUILayout.PropertyField(".toList ", true);".toList l with
  | some x => some (x, true)
  | none => (between? "EditorGUILayout.PropertyField(".toList ");".toList l).map (·, false)

/-- The member that a line declares, with its type: `private T X;`, where `T` is a word. -/
def member? (l : Text) : Option (Text × Text) :=
  (between? "private ".toList ";".toList l).bind fun t =>
    match t.dropWhile isWord with
    | ' ' :: x => some (t.takeWhile isWord, x)
    | _ => none

/-- The handle that a line assigns to, and the value: `X = V;`, where `X` is a word. Blanks before the equals
sign do not count. -/
def assignment? (l : Text) : Option (Text × Text) :=
  (between? "= ".toList ";".toList (cutWord l).2).map ((cutWord l).1, ·)

/-- The handle that a line binds and the property it is bound to: `X = serializedObject.FindProperty("Y");`. -/
def binding? (l : Text) : Option (Text × Text) :=
  (assignment? l).bind fun a =>
    (between? "serializedObject.FindProperty(\"".toList "\")".toList a.2).map (a.1, ·)

theorem handle?_eq_some_iff : handle? l = some x ↔ l = handleLine x := between?_eq_some_iff

theorem member?_eq_some_iff : member? l = some (w, x) ↔
    l = "private ".toList ++ (w ++ ' ' :: x) ++ ";".toList ∧ ∀ c ∈ w, isWord c = true := by
  simp only [member?, Option.bind_eq_some_iff, between?_eq_some_iff]
  constructor
  · rintro ⟨t, rfl, ht⟩
    split at ht
    · next z hz =>
      obtain ⟨rfl, rfl⟩ := Prod.mk.inj (Option.some.inj ht)
      rw [← hz, List.takeWhile_append_dropWhile]
      exact ⟨rfl, fun c hc => List.all_eq_true.1 List.all_takeWhile c hc⟩
    · cases ht
  · rintro ⟨rfl, hw⟩
    refine ⟨_, rfl, ?_⟩
    rw [dropWhile_word hw (by decide), takeWhile_word hw (by decide)]
    rfl

/-- A handle is declared as a member of the type of handles. -/
theorem handleLine_eq (x : Text) :
    handleLine x = "private ".toList ++ ("SerializedProperty".toList ++ ' ' :: x) ++ ";".toList := by
  have hstart : "private SerializedProperty ".toList = "private ".toList ++ "SerializedProperty".toList ++ [' '] := by
    decide
  unfold handleLine
  rw [hstart]
  simp only [List.append_assoc, List.cons_append, List.nil_append]
  rfl

theorem member?_handleLine (x : Text) : member? (handleLine x) = some ("SerializedProperty".toList, x) :=
  member?_eq_some_iff.2 ⟨handleLine_eq x, List.all_eq_true.1 (by decide)⟩

theorem handle?_eq_member? (l : Text) :
    handle? l = (member? l).bind fun m => if m.1 = "SerializedProperty".toList then some m.2 else none := by
  apply Option.ext
  intro x
  rw [handle?_eq_some_iff, Option.bind_eq_some_iff]
  constructor
  · rintro rfl
    exact ⟨("SerializedProperty".toList, x), member?_handleLine x, if_pos rfl⟩
  · rintro ⟨⟨w, y⟩, hm, hx⟩
    obtain ⟨hw, hy⟩ := Option.ite_none_right_eq_some.1 hx
    obtain rfl : w = _ := hw
    obtain rfl : y = x := Option.some.inj hy
    rw [handleLine_eq]
    exact (member?_eq_some_iff.1 hm).1

/-! ### Lines that are read -/

theorem member?_targetLine (h : ∀ c ∈ r.type.name, isWord c = true) :
    member? r.targetLine = some (r.type.name, r.type.targetHandle) := by
  refine member?_eq_some_iff.2 ⟨?_, h⟩
  unfold targetLine
  simp only [List.append_assoc, List.cons_append]
  rfl

theorem draw?_drawLine (hx : ∀ c ∈ x, isWord c = true) (b : Bool) : draw? (drawLine x b) = some (x, b) := by
  unfold draw?
  cases b with
  | true =>
    have hread : between? "EditorGUILayout.PropertyField(".toList ", true);".toList (drawLine x true) = some x :=
      between?_eq_some_iff.2 rfl
    rw [hread]
  | false =>
    have hnone : between? "EditorGUILayout.PropertyField(".toList ", true);".toList (drawLine x false) = none := by
      refine Option.eq_none_iff_forall_ne_some.2 fun z hz => ?_
      -- a comma would be in the name
      have h := between?_eq_some_iff.1 hz
      unfold drawLine at h
      rw [List.append_assoc, List.append_assoc, List.append_right_inj] at h
      have hstop : ", true);".toList = ", true".toList ++ ");".toList := by decide
      rw [hstop, ← List.append_assoc] at h
      have hcomma : ',' ∈ x := by
        rw [List.append_cancel_right h]
        exact List.mem_append_right z (by decide)
      exact absurd (hx ',' hcomma) (by decide)
    have hread : between? "EditorGUILayout.PropertyField(".toList ");".toList (drawLine x false) = some x :=
      between?_eq_some_iff.2 rfl
    rw [hnone, hread]
    rfl

/-! ### Statements that bind -/

/-- What a statement that binds says after the equals sign. -/
def bindRest (y : Text) : Text := "serializedObject.FindProperty(\"".toList ++ y ++ "\")".toList

theorem bindLine_eq (x y : Text) : bindLine x y = x ++ ' ' :: ("= ".toList ++ bindRest y ++ ";".toList) := by
  unfold bindLine bindRest
  simp only [List.append_assoc]
  rfl

/-- A statement that assigns to a word is cut before the equals sign, also if the word is empty and the blank
after it has been taken for indentation. -/
theorem cutWord_trimStart (hx : ∀ c ∈ x, isWord c = true) (t : Text) :
    cutWord (trimStart (x ++ ' ' :: ("= ".toList ++ t))) = (x, "= ".toList ++ t) := by
  by_cases hne : x = []
  · rw [hne]
    rfl
  · rw [trimStart_word hx hne, cutWord_append hx (by decide)]
    rfl

theorem assignment?_trimStart (hx : ∀ c ∈ x, isWord c = true) (y : Text) :
    assignment? (trimStart (x ++ ' ' :: ("= ".toList ++ y ++ ";".toList))) = some (x, y) := by
  have hread : between? "= ".toList ";".toList ("= ".toList ++ (y ++ ";".toList)) = some y :=
    between?_eq_some_iff.2 (List.append_assoc _ _ _).symm
  rw [assignment?, List.append_assoc, cutWord_trimStart hx, hread]
  rfl

theorem assignment?_bindLine (hx : ∀ c ∈ x, isWord c = true) (y : Text) :
    assignment? (trimStart (bindLine x y)) = some (x, bindRest y) := by
  rw [bindLine_eq, assignment?_trimStart hx]

/-- What is assigned to the typed reference. -/
def targetRest (r : EditorRequest) : Text := "target as ".toList ++ r.type.name

theorem isWord_targetHandle (h : ∀ c ∈ r.type.name, isWord c = true) : ∀ c ∈ r.type.targetHandle, isWord c = true := by
  unfold TypeName.targetHandle
  exact List.forall_mem_cons.2 ⟨by decide, fun c hc => isWord_of_mem_lowerFirst h hc⟩

theorem assignment?_bindTargetLine (h : ∀ c ∈ r.type.name, isWord c = true) :
    assignment? (trimStart r.bindTargetLine) = some (r.type.targetHandle, r.targetRest) := by
  have hline : r.bindTargetLine = r.type.targetHandle ++ ' ' :: ("= ".toList ++ r.targetRest ++ ";".toList) := by
    unfold bindTargetLine targetRest
    simp only [List.append_assoc]
    rfl
  rw [hline, assignment?_trimStart (isWord_targetHandle h)]

/-- Nothing is assigned without an equals sign. -/
theorem mem_of_assignment? {a : Text × Text} (h : assignment? l = some a) : '=' ∈ l := by
  obtain ⟨x, hx, -⟩ := Option.map_eq_some_iff.1 h
  have hmem : '=' ∈ (cutWord l).2 := by
    rw [between?_eq_some_iff.1 hx]
    exact List.mem_cons_self
  exact (List.dropWhile_sublist isWord).mem ((List.dropWhile_sublist isBlank).mem hmem)

theorem assignment?_eq_none (h : '=' ∉ l) : assignment? l = none :=
  Option.eq_none_iff_forall_ne_some.2 fun _ ha => h (mem_of_assignment? ha)

/-- After a first word, a statement that binds goes on with a blank and the equals sign. -/
theorem eq_of_trimStart_bindLine (hx : ∀ c ∈ x, isWord c = true) (hw : ∀ c ∈ w, isWord c = true) (hne : w ≠ [])
    {c : Char} (hc : isWord c = false) {t : Text} (h : trimStart (bindLine x y) = w ++ c :: t) :
    c :: t = ' ' :: ("= ".toList ++ bindRest y ++ ";".toList) := by
  rw [bindLine_eq] at h
  by_cases hxne : x = []
  · obtain ⟨d, w, rfl⟩ := List.exists_cons_of_ne_nil hne
    rw [hxne] at h
    have hd : some '=' = some d := congrArg List.head? h
    rw [← Option.some.inj hd] at hw
    exact absurd (hw '=' List.mem_cons_self) (by decide)
  · rw [trimStart_word hx hxne] at h
    exact (word_append_inj hw hx hc (by decide) h.symm).2

theorem member?_bindLine (hx : ∀ c ∈ x, isWord c = true) (y : Text) :
    member? (trimStart (bindLine x y)) = none := by
  refine Option.eq_none_iff_forall_ne_some.2 fun ⟨w, z⟩ hm => ?_
  obtain ⟨h, hw⟩ := member?_eq_some_iff.1 hm
  have hprivate : ∀ c ∈ "private".toList, isWord c = true := List.all_eq_true.1 (by decide)
  have hrest : ' ' :: ((w ++ ' ' :: z) ++ ";".toList) = _ :=
    eq_of_trimStart_bindLine hx hprivate (by decide) (by decide) h
  replace hrest := List.tail_eq_of_cons_eq hrest
  -- neither a word nor a blank starts with the equals sign
  cases w with
  | nil =>
    have hc : some ' ' = some '=' := congrArg List.head? hrest
    exact absurd hc (by decide)
  | cons c w =>
    have hc : some c = some '=' := congrArg List.head? hrest
    rw [Option.some.inj hc] at hw
    exact absurd (hw '=' List.mem_cons_self) (by decide)

theorem draw?_bindLine (hx : ∀ c ∈ x, isWord c = true) (y : Text) :
    draw? (trimStart (bindLine x y)) = none := by
  have hlayout : ∀ c ∈ "EditorGUILayout".toList, isWord c = true := List.all_eq_true.1 (by decide)
  have hstart : "EditorGUILayout.PropertyField(".toList =
      "EditorGUILayout".toList ++ '.' :: "PropertyField(".toList := by decide
  refine Option.eq_none_iff_forall_ne_some.2 fun a ha => ?_
  obtain ⟨t, ht⟩ : ∃ t, trimStart (bindLine x y) = "EditorGUILayout".toList ++ '.' :: t := by
    unfold draw? at ha
    split at ha
    · next z hz =>
      rw [between?_eq_some_iff.1 hz, hstart, List.append_assoc, List.append_assoc]
      exact ⟨_, rfl⟩
    · obtain ⟨z, hz, -⟩ := Option.map_eq_some_iff.1 ha
      rw [between?_eq_some_iff.1 hz, hstart, List.append_assoc, List.append_assoc]
      exact ⟨_, rfl⟩
  have hrest := eq_of_trimStart_bindLine hx hlayout (by decide) (by decide) ht
  exact absurd (List.head_eq_of_cons_eq hrest) (by decide)

end EditorScaffold.EditorRequest
