import EditorScaffold.Proofs.Editor.Lines
import EditorScaffold.Proofs.Layout.Indentation

/-! # The indentation of an editor

Where names have no braces in them, the lines of an editor are indented as deep as braces are open
(`text_indented`). The indentation is all the white space before a line, unless the line binds a field whose name is
empty or begins with white space: such a line begins with the name (`takeWhile_isWhite_contents`). -/

namespace EditorScaffold.EditorRequest

open Text

variable {r : EditorRequest}

/-! ### What the layout says -/

theorem contentsAll_declarations (r : EditorRequest) :
    Layout.contentsAll r.declarations = (if r.target then [r.targetLine] else []) ++ r.handleLines := by
  rw [declarations, handleLines, Layout.contentsAll_append, Layout.contentsAll_append, Layout.contentsAll_map_line,
    List.append_assoc]
  cases r.target <;> rfl

theorem contents_onEnable (r : EditorRequest) : r.onEnable.contents = onEnableLine :: r.bindLines := by
  have htarget : Layout.contentsAll (if r.target then [.line r.bindTargetLine] else []) =
      if r.target then [r.bindTargetLine] else [] := by cases r.target <;> rfl
  rw [onEnable, bindLines, Layout.contents, Layout.contentsAll_append, Layout.contentsAll, Layout.contentsAll_map_line,
    htarget]
  rfl

theorem contents_onInspectorGUI (r : EditorRequest) : r.onInspectorGUI.contents =
    onInspectorLine :: disabledLine :: drawLine Editor.scriptHandle false :: r.drawLines := by
  rw [onInspectorGUI, drawLines, Layout.contents, Layout.contentsAll]
  cases r.fields.isEmpty with
  | true => rfl
  | false =>
    rw [if_neg Bool.false_ne_true, if_neg Bool.false_ne_true, Layout.contentsAll_map_line]
    rfl

theorem contentsAll_classLayout (r : EditorRequest) : Layout.contentsAll r.classLayout =
    r.attributeLine :: r.classLine :: Layout.contentsAll r.declarations ++ r.onEnable.contents ++
      r.onInspectorGUI.contents := by
  unfold attributeLine classLine
  simp [classLayout, Layout.contentsAll, Layout.contents, Layout.contentsAll_append]

theorem contentsAll_layout (r : EditorRequest) : Layout.contentsAll r.layout =
    Editor.importStatement :: (if r.type.hasSpace then [r.spaceLine] else []) ++ Layout.contentsAll r.classLayout := by
  unfold layout spaceLine
  cases r.type.hasSpace <;> simp [Layout.contentsAll, Layout.contents]

/-- **Braces come from names only**, but for those that the layout sets. -/
theorem Without.notMem_contentsAll {c : Char} (hc : c ∈ marks) (heq : c ≠ '=') (h : r.Without c) :
    ∀ t ∈ Layout.contentsAll r.layout, c ∉ t := by
  have hheader := h.notMem_headerLines hc
  simp only [headerLines, List.forall_mem_cons, List.not_mem_nil, false_implies, implies_true, and_true] at hheader
  obtain ⟨himport, hspace, hattribute, hclass, henable, hinspector, hdisabled⟩ := hheader
  have htarget := notMem_targetLine hc h.name
  rw [contentsAll_layout, contentsAll_classLayout, contentsAll_declarations, contents_onEnable,
    contents_onInspectorGUI]
  simp only [List.forall_mem_append, List.forall_mem_cons]
  refine ⟨⟨himport, ?_⟩, ⟨⟨hattribute, hclass, ?_, h.notMem_handleLines hc⟩, henable, h.notMem_bindLines hc heq⟩,
    hinspector, hdisabled, notMem_drawScriptLine hc, h.notMem_drawLines hc⟩
  · cases r.type.hasSpace <;> simp [hspace]
  · cases r.target <;> simp [htarget]

theorem closed_layout (hopen : r.Without '\x7b') (hclose : r.Without '\x7d') :
    Layout.Closed 0 (Layout.flattenAll 0 r.layout) :=
  Layout.closed_flattenAll 0 r.layout fun t ht =>
    ⟨hopen.notMem_contentsAll (by decide) (by decide) t ht, hclose.notMem_contentsAll (by decide) (by decide) t ht⟩

/-! ### White space before a line -/

theorem takeWhile_isWhite_bindLine (x y : Text) :
    (bindLine x y).takeWhile isWhite = [] ∨ x.head?.all isWhite = true := by
  cases x with
  | nil => exact Or.inr rfl
  | cons c x =>
    cases hc : isWhite c with
    | true => exact Or.inr hc
    | false => exact Or.inl (List.takeWhile_cons_of_neg (by rw [hc]; exact Bool.false_ne_true))

/-- **Only a name can put white space before a line**, where its handle is bound. -/
theorem takeWhile_isWhite_contents {t : Text} (h : t ∈ r.contents) :
    t.takeWhile isWhite = [] ∨ ∃ f ∈ r.fields, f.name.head?.all isWhite = true ∧ t = bindLine f.name f.name := by
  rcases mem_contents h with h | h | h | h | rfl | h
  · have hframe : ∀ l ∈ r.frameLines, l.takeWhile isWhite = [] := by
      rw [forall_mem_frameLines]
      exact ⟨rfl, rfl, rfl, rfl, rfl, rfl, rfl, rfl, rfl, rfl⟩
    exact Or.inl (hframe t h)
  · have htarget : ∀ l ∈ r.targetLines, l.takeWhile isWhite = [] := by
      unfold targetLines
      cases r.target with
      | true => exact List.forall_mem_cons.2 ⟨rfl, List.forall_mem_singleton.2 rfl⟩
      | false => exact List.forall_mem_nil _
    exact Or.inl (htarget t h)
  · have hhandle : ∀ l ∈ r.handleLines, l.takeWhile isWhite = [] := by
      unfold handleLines
      exact List.forall_mem_append.2 ⟨List.forall_mem_map.2 fun _ _ => rfl, List.forall_mem_singleton.2 rfl⟩
    exact Or.inl (hhandle t h)
  · unfold bindLines at h
    rcases List.mem_append.1 h with h | h
    · rcases List.mem_cons.1 h with rfl | h
      · exact Or.inl rfl
      · obtain ⟨f, hf, rfl⟩ := List.mem_map.1 h
        exact (takeWhile_isWhite_bindLine f.name f.name).imp_right fun hwhite => ⟨f, hf, hwhite, rfl⟩
    · have htarget : ∀ l ∈ (if r.target then [r.bindTargetLine] else []), l.takeWhile isWhite = [] := by
        cases r.target with
        | true => exact List.forall_mem_singleton.2 rfl
        | false => exact List.forall_mem_nil _
      exact Or.inl (htarget t h)
  · exact Or.inl rfl
  · have hdraw : ∀ l ∈ r.drawLines, l.takeWhile isWhite = [] := by
      unfold drawLines
      cases r.fields.isEmpty with
      | true => exact List.forall_mem_singleton.2 rfl
      | false => exact List.forall_mem_map.2 fun f _ => rfl
    exact Or.inl (hdraw t h)

/-! ### The text -/

theorem Without.newline_notMem_written {style : Style} (hunit : ∀ c ∈ style.indentUnit, isBlank c = true)
    (h : r.Without '\n') : ∀ l ∈ (Layout.flattenAll 0 r.layout).map style.written, '\n' ∉ l := by
  rw [List.forall_mem_map]
  intro p hp hmem
  rcases List.mem_append.1 hmem with hmem | hmem
  · exact absurd (Style.forall_mem_indentation hunit p.1 _ hmem) (by decide)
  · exact h.notMem_of_mem_contents (Or.inl rfl) p.2 (snd_mem_contents hp) hmem

/-- **The indentation of an editor shows its braces.** In a style that indents with blanks, for names without
newlines and braces, the text is made, and it is a sequence of lines, each with the line ending after it and not in
it. Each line begins with as many units of indentation as there are braces open before it, one less if it closes one.
No other white space comes before it, unless it binds a field whose name is empty or begins with white space. At the
end all braces are closed. -/
theorem text_indented {style : Style} (hending : style.lineEnding = ['\n'] ∨ style.lineEnding = ['\r', '\n'])
    (hunit : ∀ c ∈ style.indentUnit, isBlank c = true) (hname : r.type.name ≠ []) (hbreak : r.Without '\n')
    (hopen : r.Without '\x7b') (hclose : r.Without '\x7d') :
    ∃ ls : List Text, r.text style = .ok (ls.flatMap (· ++ style.lineEnding)) ∧
      (∀ l ∈ ls, ¬ style.lineEnding <:+: l) ∧
      (∀ above l below, ls = above ++ l :: below → ∃ d : Nat,
        (d : Int) = balance above.flatten - (if l.dropWhile isWhite = ['\x7d'] then 1 else 0) ∧
        style.indentation d <+: l ∧
        (l.takeWhile isWhite = style.indentation d ∨ ∃ f ∈ r.fields, f.name.head?.all isWhite = true ∧
          l = style.indentation d ++ bindLine f.name f.name)) ∧
      balance ls.flatten = 0 := by
  have hclosed := closed_layout hopen hclose
  have hnewline : '\n' ∈ style.lineEnding := by
    rcases hending with he | he <;> rw [he] <;> decide
  refine ⟨(Layout.flattenAll 0 r.layout).map style.written, ?_, fun l hl hcut => ?_, fun above l below h => ?_, ?_⟩
  · rw [text_eq_ok hname, Layout.text_eq, Style.text_eq_flatMap]
  · exact hbreak.newline_notMem_written hunit l hl (hcut.mem hnewline)
  · obtain ⟨p, hp, rfl, hdepth⟩ := Style.depth_of_nested hunit hclosed.nested hclosed.alone h
    refine ⟨p.1, hdepth, List.prefix_append _ _, ?_⟩
    rw [Style.takeWhile_written hunit]
    rcases takeWhile_isWhite_contents (snd_mem_contents hp) with hplain | ⟨f, hf, hwhite, hline⟩
    · rw [hplain, List.append_nil]
      exact Or.inl rfl
    · exact Or.inr ⟨f, hf, hwhite, by rw [Style.written, hline]⟩
  · rw [Style.balance_written hunit, hclosed.balance_eq]

/-- A request for one field of a door. -/
def ofDoor (field : Text) : EditorRequest where
  type := ⟨"Door".toList, []⟩
  fields := [({ name := field, type := .leaf .value "bool".toList } : Field).profile]
  target := false

/-- All white space before a line is indentation, if the name of the field does not begin with any. -/
theorem indented_ofDoor :
    (ofDoor "isOpen".toList).type.name ≠ [] ∧ (ofDoor "isOpen".toList).Without '\n' ∧
      (ofDoor "isOpen".toList).Without '\x7b' ∧ (ofDoor "isOpen".toList).Without '\x7d' ∧
      ∃ ls : List Text,
        (ofDoor "isOpen".toList).text { lineEnding := ['\r', '\n'] } = .ok (ls.flatMap (· ++ ['\r', '\n'])) ∧
        (∀ above l below, ls = above ++ l :: below → ∃ d : Nat,
          (d : Int) = balance above.flatten - (if l.dropWhile isWhite = ['\x7d'] then 1 else 0) ∧
          l.takeWhile isWhite = ({} : Style).indentation d) ∧
        balance ls.flatten = 0 := by
  have hname : (ofDoor "isOpen".toList).type.name ≠ [] := by decide
  have hbreak : (ofDoor "isOpen".toList).Without '\n' := ⟨by decide, by decide, by decide⟩
  have hopen : (ofDoor "isOpen".toList).Without '\x7b' := ⟨by decide, by decide, by decide⟩
  have hclose : (ofDoor "isOpen".toList).Without '\x7d' := ⟨by decide, by decide, by decide⟩
  have hunit : ∀ c ∈ ({ lineEnding := ['\r', '\n'] } : Style).indentUnit, isBlank c = true :=
    List.forall_mem_singleton.2 rfl
  have hplain : ∀ f ∈ (ofDoor "isOpen".toList).fields, ¬ f.name.head?.all isWhite = true := by decide
  obtain ⟨ls, htext, -, hlines, hbalance⟩ := text_indented (Or.inr rfl) hunit hname hbreak hopen hclose
  refine ⟨hname, hbreak, hopen, hclose, ls, htext, fun above l below h => ?_, hbalance⟩
  obtain ⟨d, hd, -, hwhite | ⟨f, hf, hwhite, -⟩⟩ := hlines above l below h
  · exact ⟨d, hd, hwhite⟩
  · exact absurd hwhite (hplain f hf)

/-- Where the name of a field begins with a blank, the line that binds it has a blank more before it than the two
braces that are open there ask for. -/
theorem not_indented_ofDoor :
    (ofDoor " isOpen".toList).type.name ≠ [] ∧ (ofDoor " isOpen".toList).Without '\n' ∧
      (ofDoor " isOpen".toList).Without '\x7b' ∧ (ofDoor " isOpen".toList).Without '\x7d' ∧
      ∃ (above : List Text) (l : Text) (below : List Text),
        (ofDoor " isOpen".toList).text {} = .ok ((above ++ l :: below).flatMap (· ++ ['\n'])) ∧
        (∀ k ∈ above ++ l :: below, ¬ ['\n'] <:+: k) ∧
        l = "\t\t isOpen = serializedObject.FindProperty(\" isOpen\");".toList ∧ balance above.flatten = 2 ∧
        l.dropWhile isWhite ≠ ['\x7d'] ∧ l.takeWhile isWhite ≠ ({} : Style).indentation 2 := by
  have hname : (ofDoor " isOpen".toList).type.name ≠ [] := by decide
  have hbreak : (ofDoor " isOpen".toList).Without '\n' := ⟨by decide, by decide, by decide⟩
  have hopen : (ofDoor " isOpen".toList).Without '\x7b' := ⟨by decide, by decide, by decide⟩
  have hclose : (ofDoor " isOpen".toList).Without '\x7d' := ⟨by decide, by decide, by decide⟩
  have hunit : ∀ c ∈ ({} : Style).indentUnit, isBlank c = true := List.forall_mem_singleton.2 rfl
  have hmem : (2, bindLine " isOpen".toList " isOpen".toList) ∈
      Layout.flattenAll 0 (ofDoor " isOpen".toList).layout := by decide
  obtain ⟨above, below, hlines⟩ := List.append_of_mem hmem
  have hwritten := congrArg (List.map ({} : Style).written) hlines
  rw [List.map_append, List.map_cons] at hwritten
  have hnested := (closed_layout hopen hclose).nested
  rw [hlines, Layout.nestedFrom_append] at hnested
  have hdepth : (2 : Int) = 0 + balance (Layout.joined above) - 0 := hnested.2.1
  refine ⟨hname, hbreak, hopen, hclose, above.map ({} : Style).written,
    ({} : Style).written (2, bindLine " isOpen".toList " isOpen".toList), below.map ({} : Style).written, ?_, ?_,
    by decide, ?_, by decide, by decide⟩
  · rw [← hwritten, text_eq_ok hname, Layout.text_eq, Style.text_eq_flatMap]
  · rw [← hwritten]
    exact fun k hk hcut => hbreak.newline_notMem_written hunit k hk (hcut.mem List.mem_cons_self)
  · rw [Style.balance_written hunit]
    omega

end EditorScaffold.EditorRequest
