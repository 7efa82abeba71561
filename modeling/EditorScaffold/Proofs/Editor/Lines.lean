import EditorScaffold.Editor
import EditorScaffold.Proofs.Layout.Lines
import EditorScaffold.Proofs.Text.Word

/-! # The lines of an editor

The layout of an editor is told here line by line: the lines of the class stand at a depth that depends on
the namespace only (`flattenAll_classLayout`, `flattenAll_layout`), and in a regular style they are the lines
of the text (`exists_text_of_regular`), because a name without newlines puts none into them
(`notMem_of_mem_layout`). -/

namespace EditorScaffold

open Text

namespace EditorRequest

variable {r : EditorRequest}

/-! ### Groups of lines -/

/-- The attribute of the class. -/
def attributeLine (r : EditorRequest) : Text := "[CustomEditor(typeof(".toList ++ r.type.name ++ "))]".toList

/-- The header of the class. -/
def classLine (r : EditorRequest) : Text :=
  "public class ".toList ++ r.type.editorClass ++ " : ".toList ++ TypeName.editorWord

/-- The header of the namespace. -/
def spaceLine (r : EditorRequest) : Text := "namespace ".toList ++ r.type.space

/-- The header of the method that binds the handles. -/
def onEnableLine : Text := "private void OnEnable()".toList

/-- The header of the method that draws the handles. -/
def onInspectorLine : Text := "public override void OnInspectorGUI()".toList

/-- The header of the block that draws the script. -/
def disabledLine : Text := "using (new EditorGUI.DisabledScope(true))".toList

/-- The declaration of the typed reference, with the blank line after it. -/
def targetLines (r : EditorRequest) : List Text := if r.target then [r.targetLine, []] else []

/-- The declarations of the handles. -/
def handleLines (r : EditorRequest) : List Text :=
  r.fields.map (fun f => handleLine f.name) ++ [handleLine Editor.scriptHandle]

/-- The statements that bind the handles and the typed reference. -/
def bindLines (r : EditorRequest) : List Text :=
  bindLine Editor.scriptHandle Editor.scriptProperty :: r.fields.map (fun f => bindLine f.name f.name) ++
    if r.target then [r.bindTargetLine] else []

/-- The statements that draw the fields, or the default inspector. -/
def drawLines (r : EditorRequest) : List Text :=
  if r.fields.isEmpty then [drawDefaultLine] else r.fields.map fun f => drawLine f.name f.isCollection

/-! ### Lines and depths -/

theorem flattenAll_declarations (r : EditorRequest) (d : Nat) :
    Layout.flattenAll d r.declarations = (r.targetLines ++ r.handleLines).map (d, ·) := by
  rw [declarations, Layout.flattenAll_append, Layout.flattenAll_append, Layout.flattenAll_map_line,
    targetLines, handleLines]
  cases r.target <;> simp [Layout.flattenAll, Layout.flatten]

theorem flatten_onEnable (r : EditorRequest) (d : Nat) :
    r.onEnable.flatten d =
      [onEnableLine, ['\x7b']].map (d, ·) ++ r.bindLines.map (d + 1, ·) ++ [(d, ['\x7d'])] := by
  rw [onEnable, bindLines, Layout.flatten, Layout.flattenAll_append, List.cons_append,
    Layout.flattenAll_cons_line, Layout.flattenAll_map_line]
  unfold onEnableLine
  cases r.target <;> simp [Layout.flattenAll, Layout.flatten]

theorem flatten_onInspectorGUI (r : EditorRequest) (d : Nat) :
    r.onInspectorGUI.flatten d =
      [onInspectorLine, ['\x7b']].map (d, ·) ++ [disabledLine, ['\x7b']].map (d + 1, ·) ++
        [(d + 2, drawLine Editor.scriptHandle false)] ++ (['\x7d'] :: r.drawLines).map (d + 1, ·) ++
          [(d, ['\x7d'])] := by
  rw [onInspectorGUI, drawLines, Layout.flatten, Layout.flattenAll]
  unfold onInspectorLine disabledLine
  cases r.fields.isEmpty <;> simp [Layout.flattenAll, Layout.flatten, Layout.flattenAll_map_line]

/-- **The lines of the class**, with their depths. -/
theorem flattenAll_classLayout (r : EditorRequest) (d : Nat) :
    Layout.flattenAll d r.classLayout =
      [r.attributeLine, r.classLine, ['\x7b']].map (d, ·) ++
        ((r.targetLines ++ r.handleLines).map (d + 1, ·) ++ (d + 1, []) :: r.onEnable.flatten (d + 1) ++
          (d + 1, []) :: r.onInspectorGUI.flatten (d + 1)) ++ [(d, ['\x7d'])] := by
  unfold attributeLine classLine
  simp [classLayout, Layout.flattenAll, Layout.flatten, Layout.flattenAll_append, flattenAll_declarations]

/-- **The lines of the source text**, with their depths. -/
theorem flattenAll_layout (r : EditorRequest) :
    Layout.flattenAll 0 r.layout =
      (0, Editor.importStatement) :: (0, []) ::
        if r.type.hasSpace then
          (0, r.spaceLine) :: (0, ['\x7b']) :: Layout.flattenAll 1 r.classLayout ++ [(0, ['\x7d'])]
        else Layout.flattenAll 0 r.classLayout := by
  unfold layout spaceLine
  cases r.type.hasSpace <;> simp [Layout.flattenAll, Layout.flatten]

/-! ### The text of the lines -/

/-- What the lines of the class say, whatever their depths. -/
def classContents (r : EditorRequest) : List Text :=
  [r.attributeLine, r.classLine, ['\x7b']] ++ r.targetLines ++ r.handleLines ++
    [[], onEnableLine, ['\x7b']] ++ r.bindLines ++
    [['\x7d'], [], onInspectorLine, ['\x7b'], disabledLine, ['\x7b'],
      drawLine Editor.scriptHandle false, ['\x7d']] ++ r.drawLines ++ [['\x7d'], ['\x7d']]

/-- What the lines of the source text say. -/
def contents (r : EditorRequest) : List Text :=
  [Editor.importStatement, []] ++
    if r.type.hasSpace then [r.spaceLine, ['\x7b']] ++ r.classContents ++ [['\x7d']] else r.classContents

theorem map_snd_flattenAll_classLayout (r : EditorRequest) (d : Nat) :
    (Layout.flattenAll d r.classLayout).map (·.2) = r.classContents := by
  rw [flattenAll_classLayout, flatten_onEnable, flatten_onInspectorGUI, classContents]
  simp only [List.map_append, List.map_cons, List.map_nil, List.map_map, Function.comp_def, List.map_id',
    List.append_assoc, List.cons_append, List.nil_append]

theorem map_snd_flattenAll_layout (r : EditorRequest) :
    (Layout.flattenAll 0 r.layout).map (·.2) = r.contents := by
  rw [flattenAll_layout, contents]
  cases r.type.hasSpace
  · simp only [Bool.false_eq_true, if_false, List.map_cons, map_snd_flattenAll_classLayout,
      List.cons_append, List.nil_append]
  · simp only [if_true, List.map_cons, List.map_append, map_snd_flattenAll_classLayout, List.cons_append,
      List.nil_append, List.map_nil]

theorem snd_mem_contents {l : Nat × Text} (h : l ∈ Layout.flattenAll 0 r.layout) : l.2 ∈ r.contents := by
  rw [← map_snd_flattenAll_layout]
  exact List.mem_map_of_mem h

/-! ### Kinds of lines -/

/-- The lines that open the parts of the source text, and the import. -/
def headerLines (r : EditorRequest) : List Text :=
  [Editor.importStatement, r.spaceLine, r.attributeLine, r.classLine, onEnableLine, onInspectorLine, disabledLine]

/-- The lines that say nothing of handles: they open and close the parts of the source text. -/
def frameLines (r : EditorRequest) : List Text :=
  [Editor.importStatement, [], ['\x7b'], ['\x7d'], r.spaceLine, r.attributeLine, r.classLine, onEnableLine,
    onInspectorLine, disabledLine]

theorem forall_mem_frameLines {p : Text → Prop} : (∀ l ∈ r.frameLines, p l) ↔
    p Editor.importStatement ∧ p [] ∧ p ['\x7b'] ∧ p ['\x7d'] ∧ p r.spaceLine ∧ p r.attributeLine ∧ p r.classLine ∧
      p onEnableLine ∧ p onInspectorLine ∧ p disabledLine := by
  simp only [frameLines, List.forall_mem_cons, List.not_mem_nil, false_implies, implies_true, and_true]

theorem mem_contents {l : Text} (h : l ∈ r.contents) : l ∈ r.frameLines ∨ l ∈ r.targetLines ∨ l ∈ r.handleLines ∨
    l ∈ r.bindLines ∨ l = drawLine Editor.scriptHandle false ∨ l ∈ r.drawLines := by
  simp only [contents, classContents, frameLines, List.mem_append, List.mem_cons, List.not_mem_nil, or_false] at h ⊢
  cases hspace : r.type.hasSpace with
  | false =>
    simp only [hspace, Bool.false_eq_true, if_false, List.mem_append, List.mem_cons, List.not_mem_nil, or_false] at h
    grind
  | true =>
    simp only [hspace, if_true, List.mem_append, List.mem_cons, List.not_mem_nil, or_false] at h
    grind

/-! ### Characters that come from names -/

/-- No name in the request has the character in it. -/
structure Without (c : Char) (r : EditorRequest) : Prop where
  name : c ∉ r.type.name
  space : c ∉ r.type.space
  fields : ∀ f ∈ r.fields, c ∉ f.name

/-- The characters that no statement has of its own, but for the equals sign where something is bound. -/
def marks : List Char := ['\n', '\r', '=', '\x7b', '\x7d']

/-- None of the characters is in the text. -/
def Avoids (cs : List Char) (t : Text) : Prop := ∀ c ∈ cs, c ∉ t

-- Stated here, for the instance found for a quantifier over characters may try all of them.
instance (cs : List Char) (t : Text) : Decidable (Avoids cs t) := List.decidableBAll _ cs

section Marks

variable {c : Char} (hc : c ∈ marks)
include hc

theorem notMem_handleLine {x : Text} (h : c ∉ x) : c ∉ handleLine x := by
  have hstart : Avoids marks "private SerializedProperty ".toList := by decide
  have hstop : Avoids marks [';'] := by decide
  unfold handleLine
  simp only [List.mem_append, not_or]
  exact ⟨⟨hstart c hc, h⟩, hstop c hc⟩

theorem notMem_drawLine {x : Text} (h : c ∉ x) (b : Bool) : c ∉ drawLine x b := by
  have hstart : Avoids marks "EditorGUILayout.PropertyField(".toList := by decide
  have htrue : Avoids marks ", true);".toList := by decide
  have hfalse : Avoids marks ");".toList := by decide
  unfold drawLine
  simp only [List.mem_append, not_or]
  cases b with
  | true => exact ⟨⟨hstart c hc, h⟩, htrue c hc⟩
  | false => exact ⟨⟨hstart c hc, h⟩, hfalse c hc⟩

theorem notMem_targetHandle (h : c ∉ r.type.name) : c ∉ r.type.targetHandle := by
  have hstart : Avoids marks ['_'] := by decide
  have hlower : c.toNat < 97 ∨ 122 < c.toNat ∧ c.toNat < 128 := by
    simp only [marks, List.mem_cons, List.not_mem_nil, or_false] at hc
    rcases hc with rfl | rfl | rfl | rfl | rfl <;> decide
  unfold TypeName.targetHandle
  rw [List.mem_cons, not_or]
  exact ⟨List.ne_of_not_mem_cons (hstart c hc), notMem_lowerFirst hlower h⟩

theorem notMem_targetLine (h : c ∉ r.type.name) : c ∉ r.targetLine := by
  have hstart : Avoids marks "private ".toList := by decide
  have hblank : Avoids marks [' '] := by decide
  have hstop : Avoids marks [';'] := by decide
  have hhandle : c ∉ ' ' :: r.type.targetHandle :=
    List.not_mem_cons_of_ne_of_not_mem (List.ne_of_not_mem_cons (hblank c hc)) (notMem_targetHandle hc h)
  unfold targetLine
  rw [List.mem_append, List.mem_append, List.mem_append, not_or, not_or, not_or]
  exact ⟨⟨⟨hstart c hc, h⟩, hhandle⟩, hstop c hc⟩

theorem Without.notMem_targetLines (h : r.Without c) : ∀ l ∈ r.targetLines, c ∉ l := by
  have hline := notMem_targetLine hc h.name
  unfold targetLines
  cases r.target <;> simp [hline]

theorem Without.notMem_handleLines (h : r.Without c) : ∀ l ∈ r.handleLines, c ∉ l := by
  have hscript : Avoids marks Editor.scriptHandle := by decide
  unfold handleLines
  simp only [List.forall_mem_append, List.forall_mem_map, List.forall_mem_singleton]
  exact ⟨fun f hf => notMem_handleLine hc (h.fields f hf), notMem_handleLine hc (hscript c hc)⟩

theorem notMem_drawScriptLine : c ∉ drawLine Editor.scriptHandle false := by
  have hscript : Avoids marks Editor.scriptHandle := by decide
  exact notMem_drawLine hc (hscript c hc) false

theorem Without.notMem_drawLines (h : r.Without c) : ∀ l ∈ r.drawLines, c ∉ l := by
  have hdefault : Avoids marks drawDefaultLine := by decide
  unfold drawLines
  cases r.fields.isEmpty
  · simp only [Bool.false_eq_true, if_false, List.forall_mem_map]
    exact fun f hf => notMem_drawLine hc (h.fields f hf) f.isCollection
  · simp only [if_true, List.forall_mem_singleton]
    exact hdefault c hc

theorem Without.notMem_headerLines (h : r.Without c) : ∀ l ∈ r.headerLines, c ∉ l := by
  have hwhole : ∀ l ∈ [Editor.importStatement, onEnableLine, onInspectorLine, disabledLine], Avoids marks l := by decide
  have hspace : Avoids marks "namespace ".toList := by decide
  have hattribute : Avoids marks "[CustomEditor(typeof(".toList ∧ Avoids marks "))]".toList := by decide
  have hclass : Avoids marks "public class ".toList ∧ Avoids marks " : ".toList := by decide
  have hword : Avoids marks TypeName.editorWord := by decide
  simp only [List.forall_mem_cons, List.not_mem_nil, false_implies, implies_true, and_true] at hwhole
  obtain ⟨himport, henable, hinspector, hdisabled⟩ := hwhole
  unfold headerLines spaceLine attributeLine classLine TypeName.editorClass
  simp only [List.forall_mem_cons, List.mem_append, not_or, List.not_mem_nil, false_implies, implies_true, and_true]
  exact ⟨himport c hc, ⟨hspace c hc, h.space⟩, ⟨⟨hattribute.1 c hc, h.name⟩, hattribute.2 c hc⟩,
    ⟨⟨⟨hclass.1 c hc, h.name, hword c hc⟩, hclass.2 c hc⟩, hword c hc⟩, henable c hc, hinspector c hc, hdisabled c hc⟩

theorem Without.notMem_frameLines (h : r.Without c) (hopen : c ≠ '\x7b') (hclose : c ≠ '\x7d') :
    ∀ l ∈ r.frameLines, c ∉ l := by
  have hheader := h.notMem_headerLines hc
  simp only [headerLines, List.forall_mem_cons, List.not_mem_nil, false_implies, implies_true, and_true] at hheader
  obtain ⟨himport, hheader⟩ := hheader
  rw [forall_mem_frameLines]
  exact ⟨himport, List.not_mem_nil, fun hmem => hopen (List.mem_singleton.1 hmem),
    fun hmem => hclose (List.mem_singleton.1 hmem), hheader⟩

theorem notMem_bindLine (heq : c ≠ '=') {x y : Text} (hx : c ∉ x) (hy : c ∉ y) : c ∉ bindLine x y := by
  have hc : c ∈ marks.erase '=' := (List.mem_erase_of_ne heq).2 hc
  have hstart : Avoids (marks.erase '=') " = serializedObject.FindProperty(\"".toList := by decide
  have hstop : Avoids (marks.erase '=') "\");".toList := by decide
  unfold bindLine
  simp only [List.mem_append, not_or]
  exact ⟨⟨⟨hx, hstart c hc⟩, hy⟩, hstop c hc⟩

theorem notMem_bindTargetLine (heq : c ≠ '=') (h : c ∉ r.type.name) : c ∉ r.bindTargetLine := by
  have hmark : c ∈ marks.erase '=' := (List.mem_erase_of_ne heq).2 hc
  have hstart : Avoids (marks.erase '=') " = target as ".toList := by decide
  have hstop : Avoids (marks.erase '=') [';'] := by decide
  unfold bindTargetLine
  simp only [List.mem_append, not_or]
  exact ⟨⟨⟨notMem_targetHandle hc h, hstart c hmark⟩, h⟩, hstop c hmark⟩

theorem Without.notMem_bindLines (h : r.Without c) (heq : c ≠ '=') : ∀ l ∈ r.bindLines, c ∉ l := by
  have hhandle : Avoids marks Editor.scriptHandle := by decide
  have hproperty : Avoids marks Editor.scriptProperty := by decide
  have hline := notMem_bindTargetLine hc heq h.name
  unfold bindLines
  simp only [List.cons_append, List.forall_mem_cons, List.forall_mem_append, List.forall_mem_map]
  refine ⟨notMem_bindLine hc heq (hhandle c hc) (hproperty c hc),
    fun f hf => notMem_bindLine hc heq (h.fields f hf) (h.fields f hf), ?_⟩
  cases r.target <;> simp [hline]

end Marks

/-- **Line breaks come from names only.** -/
theorem Without.notMem_of_mem_contents {c : Char} (hc : c = '\n' ∨ c = '\r') (h : r.Without c) :
    ∀ l ∈ r.contents, c ∉ l := by
  have hmark : c ∈ marks := by rcases hc with rfl | rfl <;> decide
  have hbreak : c ≠ '=' ∧ c ≠ '\x7b' ∧ c ≠ '\x7d' := by rcases hc with rfl | rfl <;> decide
  obtain ⟨heq, hopen, hclose⟩ := hbreak
  intro l hl
  rcases mem_contents hl with hl | hl | hl | hl | rfl | hl
  · exact h.notMem_frameLines hmark hopen hclose l hl
  · exact h.notMem_targetLines hmark l hl
  · exact h.notMem_handleLines hmark l hl
  · exact h.notMem_bindLines hmark heq l hl
  · exact notMem_drawScriptLine hmark
  · exact h.notMem_drawLines hmark l hl

/-! ### The text -/

theorem text_eq_ok (h : r.type.name ≠ []) (style : Style) :
    r.text style = .ok (Layout.text style r.layout) := by
  unfold EditorRequest.text
  rw [if_neg (by rwa [List.isEmpty_iff])]

theorem text_eq_error (h : r.type.name = []) (style : Style) : r.text style = .error .unnamedType := by
  unfold EditorRequest.text
  rw [if_pos (by rwa [List.isEmpty_iff])]

/-- The script itself is drawn at a depth of three or more. -/
theorem three_mul_byteSize_le_text (r : EditorRequest) (style : Style) :
    3 * style.indentUnit.byteSize ≤ (Layout.text style r.layout).byteSize := by
  have hclass : ∀ d, (d + 3, drawLine Editor.scriptHandle false) ∈ Layout.flattenAll d r.classLayout := fun d => by
    simp [flattenAll_classLayout, flatten_onInspectorGUI]
  obtain ⟨d, hd⟩ : ∃ d, (d + 3, drawLine Editor.scriptHandle false) ∈ Layout.flattenAll 0 r.layout := by
    rw [flattenAll_layout]
    cases r.type.hasSpace with
    | true => exact ⟨1, by simp [hclass 1]⟩
    | false => exact ⟨0, by simp [hclass 0]⟩
  rw [Layout.text_eq]
  exact (Nat.mul_le_mul_right _ (Nat.le_add_left 3 d)).trans (Style.mul_byteSize_le_text hd)

/-- **The lines of the source text** in a regular style, for names without newlines. -/
theorem lines_text {style : Style} (hstyle : style.Regular) (h : r.Without '\n') :
    lines (Layout.text style r.layout) = (Layout.flattenAll 0 r.layout).map style.bare ++ [[]] := by
  rw [Layout.text_eq, hstyle.lines_text]
  exact fun l hl => h.notMem_of_mem_contents (Or.inl rfl) l.2 (snd_mem_contents hl)

end EditorRequest

end EditorScaffold
