import EditorScaffold.Proofs.Editor.Lines
import EditorScaffold.Proofs.Text.LineStart

/-! # What an editor was made from

In a regular style, the text of an editor determines the type with its namespace, the typed reference and the
fields with their names and kinds (`text_eq_text_iff`), whatever the names are, as long as they have no newline
in them: a name may look like the end of a statement or like a handle. The texts are compared line by line. The
attribute of the class gives the name of the type (`attributeLine_inj`), the first blank line after it shows
whether there is a typed reference (`target_of_memberLines_eq`), the handles give the names of the fields
(`names_of_handleLines_eq`), and with these known the statements that draw give their kinds
(`pairs_of_drawLines_eq`). -/

namespace EditorScaffold.EditorRequest

open Text

variable {style : Style} {r s : EditorRequest} {x y : Text}

/-! ### Lines tell names -/

theorem handleLine_inj : handleLine x = handleLine y ↔ x = y := by
  unfold handleLine
  rw [List.append_left_inj, List.append_right_inj]

theorem handleLine_ne_nil : handleLine x ≠ [] := List.append_ne_nil_of_right_ne_nil _ (List.cons_ne_nil _ _)

theorem targetLine_ne_nil : r.targetLine ≠ [] := List.append_ne_nil_of_right_ne_nil _ (List.cons_ne_nil _ _)

theorem drawLine_inj {a b : Bool} : drawLine x a = drawLine x b ↔ a = b := by
  unfold drawLine
  rw [List.append_right_inj]
  cases a <;> cases b <;> decide

theorem attributeLine_inj : r.attributeLine = s.attributeLine ↔ r.type.name = s.type.name := by
  unfold attributeLine
  rw [List.append_left_inj, List.append_right_inj]

theorem spaceLine_inj : r.spaceLine = s.spaceLine ↔ r.type.space = s.type.space := by
  unfold spaceLine
  rw [List.append_right_inj]

/-- A namespace and an attribute begin differently. -/
theorem spaceLine_ne_attributeLine : r.spaceLine ≠ s.attributeLine := by
  intro h
  have hspace : r.spaceLine.head? = some 'n' := rfl
  have hattribute : s.attributeLine.head? = some '[' := rfl
  rw [h, hattribute] at hspace
  exact absurd hspace (by decide)

/-- A handle and a method go on differently after `private`. -/
theorem handleLine_ne_onEnableLine : handleLine x ≠ onEnableLine := by
  intro h
  have hhandle : (handleLine x)[8]? = some 'S' := rfl
  have hmethod : onEnableLine[8]? = some 'v' := rfl
  rw [h, hmethod] at hhandle
  exact absurd hhandle (by decide)

/-! ### Groups of lines tell their parts -/

theorem exists_handleLines_eq_cons (r : EditorRequest) : ∃ x ls, r.handleLines = handleLine x :: ls := by
  unfold handleLines
  cases r.fields with
  | nil => exact ⟨_, _, rfl⟩
  | cons f fs => exact ⟨_, _, rfl⟩

theorem nil_notMem_handleLines : [] ∉ r.handleLines := by
  unfold handleLines
  simp only [List.mem_append, List.mem_map, List.mem_singleton, not_or, not_exists, not_and]
  exact ⟨fun f _ => handleLine_ne_nil, handleLine_ne_nil.symm⟩

theorem names_of_handleLines_eq (h : r.handleLines = s.handleLines) :
    r.fields.map (·.name) = s.fields.map (·.name) := by
  unfold handleLines at h
  rw [List.append_left_inj] at h
  have hmap : (r.fields.map (·.name)).map handleLine = (s.fields.map (·.name)).map handleLine := by
    rw [List.map_map, List.map_map]
    exact h
  exact (List.map_inj_right fun _ _ => handleLine_inj.1).1 hmap

/-- The statements that bind are told by names. -/
theorem bindLines_congr (hname : r.type.name = s.type.name) (htarget : r.target = s.target)
    (hnames : r.fields.map (·.name) = s.fields.map (·.name)) : r.bindLines = s.bindLines := by
  have hline : r.bindTargetLine = s.bindTargetLine := by
    unfold bindTargetLine TypeName.targetHandle
    rw [hname]
  have hbind : ∀ t : EditorRequest, t.fields.map (fun f => bindLine f.name f.name) =
      (t.fields.map (·.name)).map fun n => bindLine n n := fun t => by
    rw [List.map_map]
    rfl
  unfold bindLines
  rw [hbind, hbind, hnames, htarget, hline]

/-- The statements that draw tell of known names which are those of collections. -/
theorem collections_of_drawLines_eq {fs gs : List Profile} (hnames : fs.map (·.name) = gs.map (·.name))
    (h : fs.map (fun f => drawLine f.name f.isCollection) = gs.map fun g => drawLine g.name g.isCollection) :
    fs.map (fun f => (f.name, f.isCollection)) = gs.map fun g => (g.name, g.isCollection) := by
  induction fs generalizing gs with
  | nil =>
    obtain rfl := List.map_eq_nil_iff.1 hnames.symm
    rfl
  | cons f fs ih =>
    obtain ⟨g, gs, rfl⟩ : ∃ g gs', gs = g :: gs' := by
      refine List.exists_cons_of_ne_nil fun hnil => ?_
      rw [hnil] at hnames
      cases hnames
    obtain ⟨hname, hnames⟩ := List.cons.inj hnames
    obtain ⟨hdraw, hdraws⟩ := List.cons.inj h
    dsimp only at hname hdraw
    rw [hname] at hdraw
    rw [List.map_cons, List.map_cons, ih hnames hdraws, hname, drawLine_inj.1 hdraw]

theorem pairs_of_drawLines_eq (hnames : r.fields.map (·.name) = s.fields.map (·.name))
    (h : r.drawLines = s.drawLines) :
    r.fields.map (fun f => (f.name, f.isCollection)) = s.fields.map fun f => (f.name, f.isCollection) := by
  refine collections_of_drawLines_eq hnames ?_
  unfold drawLines at h
  cases hr : r.fields with
  | nil =>
    rw [hr] at hnames
    rw [List.map_eq_nil_iff.1 hnames.symm]
  | cons f fs =>
    obtain ⟨g, gs, hs⟩ : ∃ g gs, s.fields = g :: gs := by
      refine List.exists_cons_of_ne_nil fun hnil => ?_
      rw [hr, hnil] at hnames
      cases hnames
    rw [hr, hs] at h
    rw [hs]
    exact h

/-! ### Lines of the class -/

/-- Lines at a depth, without the newlines that end them. -/
def bareLines (style : Style) (d : Nat) (ls : List Text) : List Text := ls.map fun l => style.bare (d, l)

theorem bareLines_inj {d : Nat} {ks ls : List Text} : bareLines style d ks = bareLines style d ls ↔ ks = ls :=
  List.map_inj_right fun _ _ => Style.bare_inj.1

theorem notMem_bareLines {d : Nat} {l : Text} {ls : List Text} (h : l ∉ ls) :
    style.bare (d, l) ∉ bareLines style d ls := by
  intro hmem
  obtain ⟨k, hk, hkl⟩ := List.mem_map.1 hmem
  rw [Style.bare_inj.1 hkl] at hk
  exact h hk

/-- The lines of the class after the handles and a blank line. -/
def methodLines (style : Style) (d : Nat) (r : EditorRequest) : List Text :=
  (r.onEnable.flatten (d + 1)).map style.bare ++
    style.bare (d + 1, []) :: (r.onInspectorGUI.flatten (d + 1)).map style.bare ++ [style.bare (d, ['\x7d'])]

/-- The lines of the class after its opening brace. -/
def memberLines (style : Style) (d : Nat) (r : EditorRequest) : List Text :=
  bareLines style (d + 1) r.targetLines ++
    (bareLines style (d + 1) r.handleLines ++ style.bare (d + 1, []) :: methodLines style d r)

theorem map_bare_classLayout (style : Style) (d : Nat) (r : EditorRequest) :
    (Layout.flattenAll d r.classLayout).map style.bare =
      style.bare (d, r.attributeLine) :: style.bare (d, r.classLine) :: style.bare (d, ['\x7b']) ::
        memberLines style d r := by
  rw [flattenAll_classLayout, memberLines, bareLines, bareLines, methodLines]
  simp only [List.map_append, List.map_cons, List.map_nil, List.map_map, Function.comp_def, List.append_assoc,
    List.cons_append, List.nil_append]

theorem methodLines_eq_cons (style : Style) (d : Nat) (r : EditorRequest) :
    ∃ ls, methodLines style d r = style.bare (d + 1, onEnableLine) :: ls := by
  rw [methodLines, flatten_onEnable]
  exact ⟨_, rfl⟩

/-- A typed reference shows: a blank line comes before the handles. -/
theorem target_of_memberLines_eq {d : Nat} (h : memberLines style d r = memberLines style d s)
    (hr : r.target = true) : s.target = true := by
  cases hs : s.target with
  | true => rfl
  | false =>
    -- the line of the typed reference would be all the handles, and handles would stand where a method does
    have htargets : r.targetLines = [r.targetLine] ++ [[]] := by rw [targetLines, hr]; rfl
    have hnone : s.targetLines = [] := by rw [targetLines, hs]; rfl
    unfold memberLines at h
    rw [htargets, hnone] at h
    have hcut : bareLines style (d + 1) [r.targetLine] ++ style.bare (d + 1, []) ::
          (bareLines style (d + 1) r.handleLines ++ style.bare (d + 1, []) :: methodLines style d r) =
        bareLines style (d + 1) s.handleLines ++ style.bare (d + 1, []) :: methodLines style d s := h
    obtain ⟨-, hrest⟩ := eq_of_append_cons_eq
      (notMem_bareLines fun hmem => targetLine_ne_nil (List.mem_singleton.1 hmem).symm)
      (notMem_bareLines nil_notMem_handleLines) hcut
    obtain ⟨x, ls, hx⟩ := exists_handleLines_eq_cons r
    obtain ⟨ms, hms⟩ := methodLines_eq_cons style d s
    rw [hx, hms] at hrest
    exact absurd (Style.bare_inj.1 (List.head_eq_of_cons_eq hrest)) handleLine_ne_onEnableLine

/-- **The members of the class tell the typed reference, and every field with its name and kind.** -/
theorem eq_of_memberLines_eq {d : Nat} (hname : r.type.name = s.type.name)
    (h : memberLines style d r = memberLines style d s) :
    r.target = s.target ∧
      r.fields.map (fun f => (f.name, f.isCollection)) = s.fields.map fun f => (f.name, f.isCollection) := by
  have htarget : r.target = s.target :=
    Bool.eq_iff_iff.2 ⟨target_of_memberLines_eq h, target_of_memberLines_eq h.symm⟩
  have htargets : r.targetLines = s.targetLines := by
    unfold targetLines targetLine TypeName.targetHandle
    rw [hname, htarget]
  unfold memberLines at h
  rw [htargets, List.append_cancel_left_eq] at h
  obtain ⟨hhandles, hmethods⟩ := eq_of_append_cons_eq (notMem_bareLines nil_notMem_handleLines)
    (notMem_bareLines nil_notMem_handleLines) h
  have hnames := names_of_handleLines_eq (bareLines_inj.1 hhandles)
  refine ⟨htarget, pairs_of_drawLines_eq hnames ?_⟩
  -- the same statements bind the handles, so what is left are the statements that draw
  unfold methodLines at hmethods
  rw [flatten_onEnable, flatten_onEnable, bindLines_congr hname htarget hnames, flatten_onInspectorGUI,
    flatten_onInspectorGUI] at hmethods
  simp only [List.map_append, List.map_cons, List.map_nil, List.append_assoc, List.cons_append, List.nil_append,
    List.append_cancel_left_eq, List.append_cancel_right_eq, List.cons.injEq, true_and] at hmethods
  rw [List.map_map, List.map_map] at hmethods
  exact bareLines_inj.1 hmethods

theorem eq_of_classLayout_eq {d : Nat}
    (h : (Layout.flattenAll d r.classLayout).map style.bare = (Layout.flattenAll d s.classLayout).map style.bare) :
    r.type.name = s.type.name ∧ r.target = s.target ∧
      r.fields.map (fun f => (f.name, f.isCollection)) = s.fields.map fun f => (f.name, f.isCollection) := by
  rw [map_bare_classLayout, map_bare_classLayout] at h
  obtain ⟨hattribute, h⟩ := List.cons.inj h
  have hname := attributeLine_inj.1 (Style.bare_inj.1 hattribute)
  exact ⟨hname, eq_of_memberLines_eq hname (List.tail_eq_of_cons_eq (List.tail_eq_of_cons_eq h))⟩

/-! ### The whole text -/

theorem space_eq_nil_of_hasSpace {t : TypeName} (h : t.hasSpace = false) : t.space = [] := by
  rwa [TypeName.hasSpace, Bool.not_eq_false', List.isEmpty_iff] at h

theorem typeName_eq {t u : TypeName} (hname : t.name = u.name) (hspace : t.space = u.space) : t = u := by
  obtain ⟨_, _⟩ := t
  obtain ⟨_, _⟩ := u
  rw [TypeName.mk.injEq]
  exact ⟨hname, hspace⟩

/-- A class in a namespace has other first lines than a class in none. -/
theorem spaceLines_ne_classLayout {ls : List Text} :
    style.bare (0, r.spaceLine) :: ls ≠ (Layout.flattenAll 0 s.classLayout).map style.bare := by
  intro h
  rw [map_bare_classLayout] at h
  exact spaceLine_ne_attributeLine (Style.bare_inj.1 (List.head_eq_of_cons_eq h))

theorem eq_of_layout_eq
    (h : (Layout.flattenAll 0 r.layout).map style.bare = (Layout.flattenAll 0 s.layout).map style.bare) :
    r.type = s.type ∧ r.target = s.target ∧
      r.fields.map (fun f => (f.name, f.isCollection)) = s.fields.map fun f => (f.name, f.isCollection) := by
  rw [flattenAll_layout, flattenAll_layout] at h
  replace h := List.tail_eq_of_cons_eq (List.tail_eq_of_cons_eq h)
  cases hr : r.type.hasSpace <;> cases hs : s.type.hasSpace <;>
    simp only [hr, hs, Bool.false_eq_true, if_true, if_false, List.map_cons, List.map_append,
      List.cons_append] at h
  · obtain ⟨hname, hrest⟩ := eq_of_classLayout_eq h
    exact ⟨typeName_eq hname ((space_eq_nil_of_hasSpace hr).trans (space_eq_nil_of_hasSpace hs).symm), hrest⟩
  · exact absurd h.symm spaceLines_ne_classLayout
  · exact absurd h spaceLines_ne_classLayout
  · obtain ⟨hspace, h⟩ := List.cons.inj h
    obtain ⟨hname, hrest⟩ := eq_of_classLayout_eq (List.append_cancel_right (List.tail_eq_of_cons_eq h))
    exact ⟨typeName_eq hname (spaceLine_inj.1 (Style.bare_inj.1 hspace)), hrest⟩

/-- What is not in the text: nothing of a request counts but the type, the typed reference, and the names and
kinds of the fields. -/
theorem layout_congr (htype : r.type = s.type) (htarget : r.target = s.target)
    (hfields : r.fields.map (fun f => (f.name, f.isCollection)) = s.fields.map fun f => (f.name, f.isCollection)) :
    r.layout = s.layout := by
  obtain ⟨type, fs, target⟩ := r
  obtain ⟨_, gs, _⟩ := s
  obtain rfl : type = _ := htype
  obtain rfl : target = _ := htarget
  have hmap : ∀ line : Text × Bool → Layout, fs.map (fun f => line (f.name, f.isCollection)) =
      gs.map fun f => line (f.name, f.isCollection) := fun line => by
    have h := congrArg (List.map line) hfields
    rwa [List.map_map, List.map_map] at h
  have hempty : fs.isEmpty = gs.isEmpty := by
    simpa using congrArg List.isEmpty hfields
  unfold layout classLayout declarations onEnable onInspectorGUI
  simp only [hmap fun p => .line (handleLine p.1), hmap fun p => .line (bindLine p.1 p.1),
    hmap fun p => .line (drawLine p.1 p.2), hempty]
  rfl

/-- **A text tells what it was made from.** In a regular style, two requests whose names have no newline in
them give the same text if and only if they ask for the same: the type with its namespace, the typed
reference or none, and the fields in their order, each with its name and whether it is a collection. -/
theorem text_eq_text_iff (hstyle : style.Regular) (hr : r.type.name ≠ []) (hs : s.type.name ≠ [])
    (hrn : r.Without '\n') (hsn : s.Without '\n') :
    r.text style = s.text style ↔ r.type = s.type ∧ r.target = s.target ∧
      r.fields.map (fun f => (f.name, f.isCollection)) = s.fields.map fun f => (f.name, f.isCollection) := by
  rw [text_eq_ok hr, text_eq_ok hs, Except.ok.injEq]
  constructor
  · intro h
    have hlines := congrArg lines h
    rw [lines_text hstyle hrn, lines_text hstyle hsn] at hlines
    exact eq_of_layout_eq (List.append_cancel_right hlines)
  · rintro ⟨htype, htarget, hfields⟩
    rw [layout_congr htype htarget hfields]

/-- A request for one field of a type that is called like the type of handles. -/
def ofField (name : Text) (type : FieldType) : EditorRequest where
  type := ⟨"SerializedProperty".toList, "Game".toList⟩
  fields := [({ name, type } : Field).profile]
  target := true

/-- A field whose name imitates the end of a statement is told from the collection that it imitates, though
both are drawn by the same statement. -/
theorem text_ofField_ne :
    ({} : Style).Regular ∧ (ofField "items".toList (.container .list .text)).Without '\n' ∧
    (ofField "items, true".toList .text).Without '\n' ∧
    (ofField "items".toList (.container .list .text)).drawLines = (ofField "items, true".toList .text).drawLines ∧
    (ofField "items".toList (.container .list .text)).text {} ≠ (ofField "items, true".toList .text).text {} := by
  have hstyle : ({} : Style).Regular := ⟨Or.inl rfl, by decide⟩
  have hitems : (ofField "items".toList (.container .list .text)).Without '\n' :=
    ⟨by decide, by decide, by decide⟩
  have hitem : (ofField "items, true".toList .text).Without '\n' := ⟨by decide, by decide, by decide⟩
  refine ⟨hstyle, hitems, hitem, by decide, ?_⟩
  rw [Ne, text_eq_text_iff hstyle (by decide) (by decide) hitems hitem]
  decide

end EditorScaffold.EditorRequest
