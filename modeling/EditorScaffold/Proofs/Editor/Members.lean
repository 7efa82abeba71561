import EditorScaffold.Proofs.Editor.Selection
import Mathlib.Data.List.Nodup

/-! # The members of an editor class

The class declares the typed reference, if there is one, a handle for each selected field, and the handle of the
script (`filterMap_declarations`), and gives each of them a value when it is enabled (`onEnable_eq`). A handle is
called like its field, the script's handle has a fixed name, and the typed reference is called after the type, so
that fields with different names are not enough to keep the members apart: `nodup_memberNames_iff` says exactly when
no member is declared twice. -/

namespace EditorScaffold

/-- The content of a piece that is a line. -/
def Layout.content? : Layout → Option Text
  | .line content => some content
  | _ => none

namespace EditorRequest

variable {r : EditorRequest}

/-! ### Declarations and assignments -/

/-- The declaration of a member. -/
def memberLine (type name : Text) : Text := "private ".toList ++ type ++ ' ' :: name ++ [';']

/-- The statement that gives a member a value. -/
def assignLine (name value : Text) : Text := name ++ " = ".toList ++ value ++ [';']

/-- The members of the class, each with its type. -/
def members (r : EditorRequest) : List (Text × Text) :=
  (if r.target then [(r.type.name, r.type.targetHandle)] else []) ++
    r.handleNames.map ("SerializedProperty".toList, ·)

/-- The members that get a value when the class is enabled, each with its value. -/
def assignments (r : EditorRequest) : List (Text × Text) :=
  r.bindings.map (fun p => (p.1, bindRest p.2)) ++
    if r.target then [(r.type.targetHandle, r.targetRest)] else []

theorem bindLine_eq_assignLine (x y : Text) : bindLine x y = assignLine x (bindRest y) := by
  unfold bindLine assignLine bindRest
  simp

theorem bindTargetLine_eq_assignLine (r : EditorRequest) :
    r.bindTargetLine = assignLine r.type.targetHandle r.targetRest := by
  unfold bindTargetLine assignLine targetRest
  simp

/-- **The declarations of the class** are those of its members. -/
theorem filterMap_declarations (r : EditorRequest) :
    r.declarations.filterMap Layout.content? = r.members.map fun m => memberLine m.1 m.2 := by
  have htarget : (if r.target then [.line r.targetLine, .blank] else []).filterMap Layout.content? =
      (if r.target then [(r.type.name, r.type.targetHandle)] else []).map fun m => memberLine m.1 m.2 := by
    cases r.target <;> rfl
  have hfields : (r.fields.map fun f => Layout.line (handleLine f.name)).filterMap Layout.content? =
      r.fields.map fun f => handleLine f.name := filterMap_map_some fun f _ => rfl
  rw [declarations, List.filterMap_append, List.filterMap_append, htarget, hfields, members, handleNames,
    List.map_append, List.map_map, List.map_append, List.map_map, List.append_assoc]
  rfl

/-- **When the class is enabled**, the assignments are carried out, and nothing else. -/
theorem onEnable_eq (r : EditorRequest) :
    r.onEnable = .block onEnableLine (r.assignments.map fun a => .line (assignLine a.1 a.2)) := by
  have hbindings : Layout.line (bindLine Editor.scriptHandle Editor.scriptProperty) ::
      r.fields.map (fun f => Layout.line (bindLine f.name f.name)) =
        (r.bindings.map fun p => (p.1, bindRest p.2)).map fun a => .line (assignLine a.1 a.2) := calc
    _ = r.bindings.map fun p => Layout.line (bindLine p.1 p.2) := by
      rw [bindings, List.map_cons, List.map_map]
      rfl
    _ = _ := by
      rw [List.map_map]
      exact List.map_congr_left fun p _ => congrArg Layout.line (bindLine_eq_assignLine p.1 p.2)
  have htarget : (if r.target then [Layout.line r.bindTargetLine] else []) =
      (if r.target then [(r.type.targetHandle, r.targetRest)] else []).map fun a => .line (assignLine a.1 a.2) := by
    rw [bindTargetLine_eq_assignLine]
    cases r.target <;> rfl
  rw [onEnable, hbindings, htarget, assignments, List.map_append]
  rfl

/-! ### Names of members -/

/-- The names of the members, in the order of their declarations. -/
def memberNames (r : EditorRequest) : List Text := r.members.map (·.2)

theorem memberNames_eq (r : EditorRequest) :
    r.memberNames = (if r.target then [r.type.targetHandle] else []) ++ r.handleNames := by
  rw [memberNames, members, List.map_append, List.map_map]
  cases r.target <;> simp [Function.comp_def]

theorem assigned_perm (r : EditorRequest) : (r.assignments.map (·.1)).Perm r.memberNames := by
  have hassigned : r.assignments.map (·.1) =
      Editor.scriptHandle :: r.fields.map (·.name) ++ if r.target then [r.type.targetHandle] else [] := by
    rw [assignments, bindings, List.map_append, List.map_map]
    cases r.target <;> simp [Function.comp_def]
  have hhandles : (Editor.scriptHandle :: r.fields.map (·.name)).Perm r.handleNames :=
    (List.perm_append_singleton _ _).symm
  rw [hassigned, memberNames_eq]
  exact (hhandles.append_right _).trans List.perm_append_comm

/-- **The names are apart**: no field is called like the script's handle, and if there is a typed reference, no field
and not the script's handle is called like it. -/
structure Apart (r : EditorRequest) : Prop where
  script : Editor.scriptHandle ∉ r.fields.map (·.name)
  target : r.target = true → r.type.targetHandle ∉ r.fields.map (·.name) ∧ r.type.targetHandle ≠ Editor.scriptHandle

theorem nodup_handleNames_iff (h : (r.fields.map (·.name)).Nodup) :
    r.handleNames.Nodup ↔ Editor.scriptHandle ∉ r.fields.map (·.name) := by
  rw [handleNames, ← List.concat_eq_append, List.nodup_concat]
  exact and_iff_left h

theorem nodup_memberNames_iff (h : (r.fields.map (·.name)).Nodup) : r.memberNames.Nodup ↔ r.Apart := by
  rw [memberNames_eq]
  cases htarget : r.target with
  | false =>
    rw [if_neg Bool.false_ne_true, List.nil_append, nodup_handleNames_iff h]
    exact ⟨fun hscript => ⟨hscript, fun ht => absurd (htarget.symm.trans ht) Bool.false_ne_true⟩, Apart.script⟩
  | true =>
    rw [if_pos rfl, List.singleton_append, List.nodup_cons, nodup_handleNames_iff h, handleNames, List.mem_append,
      List.mem_singleton, not_or]
    exact ⟨fun h => ⟨h.2, fun _ => h.1⟩, fun hapart => ⟨hapart.target htarget, hapart.script⟩⟩

/-- **When the members of a class are different.** For a type that has a name and fields with different names, the
text is made, it declares the members, and it gives a value to these alone when the class is enabled. No member is
declared twice exactly if the names are apart, and this is also when each of them gets one value. -/
theorem members_nodup_iff_apart (style : Style) (hname : r.type.name ≠ []) (hfields : (r.fields.map (·.name)).Nodup) :
    r.text style = .ok (Layout.text style r.layout) ∧
      r.declarations.filterMap Layout.content? = r.members.map (fun m => memberLine m.1 m.2) ∧
      r.onEnable = .block onEnableLine (r.assignments.map fun a => .line (assignLine a.1 a.2)) ∧
      (r.memberNames.Nodup ↔ r.Apart) ∧
      ((∀ x ∈ r.memberNames, (r.assignments.map (·.1)).count x = 1) ↔ r.Apart) ∧
      ∀ a ∈ r.assignments, a.1 ∈ r.memberNames := by
  have hnodup := nodup_memberNames_iff hfields
  refine ⟨text_eq_ok hname style, filterMap_declarations r, onEnable_eq r, hnodup, ?_, fun a ha => ?_⟩
  · rw [← hnodup, List.nodup_iff_count_eq_one]
    exact forall₂_congr fun x _ => by rw [r.assigned_perm.count_eq]
  · exact r.assigned_perm.subset (List.mem_map_of_mem ha)

/-- A request for a field that is called like the script's handle. -/
def ofHiddenScript : EditorRequest where
  type := ⟨"Door".toList, []⟩
  fields := [({ name := "_script".toList, type := .leaf .value "int".toList } : Field).profile]
  target := false

/-- Its one field is apart from all others, but not from the script: a handle of this name is declared twice, and
what is bound to the script is then bound to the field. -/
theorem not_nodup_ofHiddenScript :
    ofHiddenScript.type.name ≠ [] ∧ (ofHiddenScript.fields.map (·.name)).Nodup ∧
      ¬ ofHiddenScript.memberNames.Nodup ∧
      ofHiddenScript.assignments = [("_script".toList, "serializedObject.FindProperty(\"m_Script\")".toList),
        ("_script".toList, "serializedObject.FindProperty(\"_script\")".toList)] := by
  decide

/-- A request for two fields with underscores before their names. -/
def ofGuard : EditorRequest where
  type := ⟨"Guard".toList, "Game".toList⟩
  fields := ["_post", "_script_"].map fun name =>
    ({ name := name.toList, type := .leaf .object "Transform".toList } : Field).profile
  target := true

theorem nodup_ofGuard :
    ofGuard.type.name ≠ [] ∧ (ofGuard.fields.map (·.name)).Nodup ∧
      ofGuard.memberNames = ["_guard", "_post", "_script_", "_script"].map String.toList ∧
      ofGuard.memberNames.Nodup ∧ ∀ x ∈ ofGuard.memberNames, (ofGuard.assignments.map (·.1)).count x = 1 := by
  have hname : ofGuard.type.name ≠ [] := by decide
  have hfields : (ofGuard.fields.map (·.name)).Nodup := by decide
  have hapart : ofGuard.Apart := ⟨by decide, fun _ => by decide⟩
  obtain ⟨-, -, -, hnodup, hcount, -⟩ := members_nodup_iff_apart {} hname hfields
  exact ⟨hname, hfields, by decide, hnodup.2 hapart, hcount.2 hapart⟩

end EditorRequest

end EditorScaffold
