import EditorScaffold.Proofs.Editor.Reading

/-! # The selection in the text of an editor

If all names are words, the statements of an editor tell what it was made for: which fields are selected, how
each is bound and drawn, and whether there is a typed reference (`Tells`). The lines of the text fall into those
that declare, bind or draw, and a frame in which no reader finds anything (`filterMap_told`), so that each reader
finds the selection in its order (`filterMap_member?`, `filterMap_assignment?`, `filterMap_draw?`). Neither the
depth of a line nor the way it ends changes what it says (`statements_text`). -/

namespace EditorScaffold.EditorRequest

open Text

variable {r : EditorRequest}

/-! ### Requests of words -/

/-- All names in the request are words, and the namespace is made of words and dots. -/
structure Words (r : EditorRequest) : Prop where
  name : ∀ c ∈ r.type.name, isWord c = true
  space : ∀ c ∈ r.type.space, isWord c = true ∨ c = '.'
  fields : ∀ f ∈ r.fields, ∀ c ∈ f.name, isWord c = true

theorem Words.without (h : r.Words) {c : Char} (hc : isWord c = false) (hdot : c ≠ '.') : r.Without c where
  name hmem := by simpa [hc] using h.name c hmem
  space hmem := by simpa [hc, hdot] using h.space c hmem
  fields f hf hmem := by simpa [hc] using h.fields f hf c hmem

theorem isWord_scriptHandle : ∀ c ∈ Editor.scriptHandle, isWord c = true := List.all_eq_true.1 (by decide)

/-- The names of the handles: those of the selected fields in their order, and then that of the script. -/
def handleNames (r : EditorRequest) : List Text := r.fields.map (·.name) ++ [Editor.scriptHandle]

/-- The handles with the properties that they are bound to: the script comes first. -/
def bindings (r : EditorRequest) : List (Text × Text) :=
  (Editor.scriptHandle, Editor.scriptProperty) :: r.fields.map fun f => (f.name, f.name)

/-- The handles that are drawn, each with whether its elements are. -/
def draws (r : EditorRequest) : List (Text × Bool) :=
  (Editor.scriptHandle, false) :: r.fields.map fun f => (f.name, f.isCollection)

theorem handleLines_eq (r : EditorRequest) : r.handleLines = r.handleNames.map handleLine := by
  rw [handleLines, handleNames, List.map_append, List.map_map]
  rfl

theorem Words.handleNames (h : r.Words) : ∀ x ∈ r.handleNames, ∀ c ∈ x, isWord c = true := by
  simp only [EditorRequest.handleNames, List.forall_mem_append, List.forall_mem_map, List.forall_mem_singleton]
  exact ⟨h.fields, isWord_scriptHandle⟩

theorem Words.bindings (h : r.Words) : ∀ p ∈ r.bindings, ∀ c ∈ p.1, isWord c = true := by
  simp only [EditorRequest.bindings, List.forall_mem_cons, List.forall_mem_map]
  exact ⟨isWord_scriptHandle, h.fields⟩

theorem Words.draws (h : r.Words) : ∀ p ∈ r.draws, ∀ c ∈ p.1, isWord c = true := by
  simp only [EditorRequest.draws, List.forall_mem_cons, List.forall_mem_map]
  exact ⟨isWord_scriptHandle, h.fields⟩

/-! ### Lines that are read together -/

theorem cons_drawLines (r : EditorRequest) : drawLine Editor.scriptHandle false :: r.drawLines =
    r.draws.map (fun p => drawLine p.1 p.2) ++ if r.fields.isEmpty then [drawDefaultLine] else [] := by
  unfold drawLines draws
  cases r.fields with
  | nil => rfl
  | cons f fs =>
    simp only [List.isEmpty_cons, Bool.false_eq_true, if_false, List.append_nil, List.map_cons, List.map_map,
      Function.comp_def]

theorem bindLines_eq (r : EditorRequest) : r.bindLines =
    r.bindings.map (fun p => bindLine p.1 p.2) ++ if r.target then [r.bindTargetLine] else [] := by
  rw [bindLines, bindings, List.map_cons, List.map_map]
  rfl

/-- What a reader finds in the lines it finds in those that declare, bind or draw. -/
theorem filterMap_contents {α : Type} {f : Text → Option α} (h : ∀ l ∈ r.frameLines, f l = none) :
    r.contents.filterMap f =
      (r.targetLines ++ r.handleLines ++ (r.bindLines ++ drawLine Editor.scriptHandle false :: r.drawLines)).filterMap
        f := by
  rw [forall_mem_frameLines] at h
  obtain ⟨himport, hnil, hopen, hclose, hspace, hattribute, hclass, henable, hinspector, hdisabled⟩ := h
  rw [contents, classContents]
  cases r.type.hasSpace <;>
    simp [himport, hnil, hopen, hclose, hspace, hattribute, hclass, henable, hinspector, hdisabled,
      List.filterMap_cons, List.append_assoc]

/-- What the lines of the source text say, an empty one after the last newline. -/
def told (r : EditorRequest) : List Text := r.contents.map trimStart ++ [[]]

theorem filterMap_singleton {α β : Type} (f : α → Option β) (a : α) : [a].filterMap f = (f a).toList := by
  rw [List.filterMap_cons, List.filterMap_nil]
  cases f a <;> rfl

/-- **What a reader finds in the text** it finds in the declarations of the members, in the statements that bind
and in those that draw. -/
theorem filterMap_told {α : Type} {f : Text → Option α} (h : ∀ l ∈ r.frameLines, f l = none) :
    r.told.filterMap f =
      (if r.target then (f r.targetLine).toList else []) ++ (r.handleNames.map handleLine).filterMap f ++
        ((r.bindings.map fun p => trimStart (bindLine p.1 p.2)).filterMap f ++
            (if r.target then (f r.bindTargetLine).toList else []) ++
          ((r.draws.map fun p => drawLine p.1 p.2).filterMap f ++
            if r.fields.isEmpty then (f drawDefaultLine).toList else [])) := by
  have hframe : ∀ l ∈ r.frameLines, trimStart l = l := by
    rw [forall_mem_frameLines]
    exact ⟨rfl, rfl, rfl, rfl, rfl, rfl, rfl, rfl, rfl, rfl⟩
  have hnil : [[]].filterMap f = [] := List.filterMap_cons_none ((forall_mem_frameLines.1 h).2.1)
  have htarget : (r.targetLines.map trimStart).filterMap f = if r.target then (f r.targetLine).toList else [] := by
    unfold targetLines
    cases r.target with
    | true =>
      have hlines : [r.targetLine, []].map trimStart = [r.targetLine] ++ [[]] := rfl
      rw [if_pos rfl, hlines, List.filterMap_append, hnil, List.append_nil, filterMap_singleton]
      rfl
    | false => rfl
  have hhandles : r.handleLines.map trimStart = r.handleNames.map handleLine := by
    rw [handleLines_eq, List.map_map]
    rfl
  have hbind : (r.bindLines.map trimStart).filterMap f =
      (r.bindings.map fun p => trimStart (bindLine p.1 p.2)).filterMap f ++
        if r.target then (f r.bindTargetLine).toList else [] := by
    rw [bindLines_eq, List.map_append, List.map_map, List.filterMap_append]
    cases r.target with
    | true => exact congrArg (_ ++ ·) (filterMap_singleton f r.bindTargetLine)
    | false => rfl
  have hdraws : ((drawLine Editor.scriptHandle false :: r.drawLines).map trimStart).filterMap f =
      (r.draws.map fun p => drawLine p.1 p.2).filterMap f ++
        if r.fields.isEmpty then (f drawDefaultLine).toList else [] := by
    rw [cons_drawLines, List.map_append, List.map_map, List.filterMap_append]
    cases r.fields.isEmpty with
    | true => exact congrArg (_ ++ ·) (filterMap_singleton f drawDefaultLine)
    | false => rfl
  have hnone : ∀ l ∈ r.frameLines, (f ∘ trimStart) l = none := fun l hl => by
    rw [Function.comp_apply, hframe l hl, h l hl]
  rw [told, List.filterMap_append, hnil, List.append_nil, List.filterMap_map, filterMap_contents hnone,
    ← List.filterMap_map]
  simp only [List.map_append, List.filterMap_append, htarget, hhandles, hbind, hdraws]

theorem filterMap_map_some {α β γ : Type} {f : β → Option γ} {g : α → β} {h : α → γ} {as : List α}
    (hread : ∀ a ∈ as, f (g a) = some (h a)) : (as.map g).filterMap f = as.map h := by
  rw [List.filterMap_map, ← List.filterMap_eq_map]
  exact List.filterMap_congr hread

theorem filterMap_map_none {α β γ : Type} {f : β → Option γ} {g : α → β} {as : List α}
    (hread : ∀ a ∈ as, f (g a) = none) : (as.map g).filterMap f = [] :=
  List.filterMap_eq_nil_iff.2 (List.forall_mem_map.2 hread)

/-- **The members** are the typed reference, if there is one, and then the handles. -/
theorem filterMap_member? (h : r.Words) : r.told.filterMap member? =
    (if r.target then [(r.type.name, r.type.targetHandle)] else []) ++
      r.handleNames.map ("SerializedProperty".toList, ·) := by
  have hframe : ∀ l ∈ r.frameLines, member? l = none := by
    rw [forall_mem_frameLines]
    exact ⟨rfl, rfl, rfl, rfl, rfl, rfl, rfl, rfl, rfl, rfl⟩
  have hbind : member? r.bindTargetLine = none := rfl
  have hdefault : member? drawDefaultLine = none := rfl
  rw [filterMap_told hframe, member?_targetLine h.name, hbind, hdefault,
    filterMap_map_some fun x _ => member?_handleLine x,
    filterMap_map_none fun p hp => member?_bindLine (h.bindings p hp) p.2, filterMap_map_none fun p _ => rfl]
  simp only [Option.toList_some, Option.toList_none, ite_self, List.append_nil]

/-- **The assignments** are the bindings of the handles, and then that of the typed reference. -/
theorem filterMap_assignment? (h : r.Words) : r.told.filterMap assignment? =
    r.bindings.map (fun p => (p.1, bindRest p.2)) ++
      if r.target then [(r.type.targetHandle, r.targetRest)] else [] := by
  -- what has no equals sign assigns nothing
  have hmark : '=' ∈ marks := by decide
  have hequals : r.Without '=' := h.without (by decide) (by decide)
  have hword : ∀ {x : Text}, (∀ c ∈ x, isWord c = true) → '=' ∉ x := fun hx hmem =>
    absurd (hx '=' hmem) (by decide)
  have htarget : assignment? r.targetLine = none := assignment?_eq_none (notMem_targetLine hmark hequals.name)
  have hbind : assignment? r.bindTargetLine = _ := assignment?_bindTargetLine h.name
  have hdefault : assignment? drawDefaultLine = none := rfl
  rw [filterMap_told fun l hl => assignment?_eq_none (hequals.notMem_frameLines hmark (by decide) (by decide) l hl),
    htarget, hbind, hdefault,
    filterMap_map_none fun x hx => assignment?_eq_none (notMem_handleLine hmark (hword (h.handleNames x hx))),
    filterMap_map_some fun p hp => assignment?_bindLine (h.bindings p hp) p.2,
    filterMap_map_none fun p hp => assignment?_eq_none (notMem_drawLine hmark (hword (h.draws p hp)) p.2)]
  simp only [Option.toList_some, Option.toList_none, ite_self, List.append_nil, List.nil_append]

/-- **The draws** are that of the script, and then those of the selected fields. -/
theorem filterMap_draw? (h : r.Words) : r.told.filterMap draw? = r.draws := by
  have hframe : ∀ l ∈ r.frameLines, draw? l = none := by
    rw [forall_mem_frameLines]
    exact ⟨rfl, rfl, rfl, rfl, rfl, rfl, rfl, rfl, rfl, rfl⟩
  have htarget : draw? r.targetLine = none := rfl
  have hbind : draw? r.bindTargetLine = none := rfl
  have hdefault : draw? drawDefaultLine = none := rfl
  rw [filterMap_told hframe, htarget, hbind, hdefault, filterMap_map_none fun x _ => rfl,
    filterMap_map_none fun p hp => draw?_bindLine (h.bindings p hp) p.2,
    filterMap_map_some fun p hp => draw?_drawLine (h.draws p hp) p.2, List.map_id']
  simp only [Option.toList_none, ite_self, List.append_nil, List.nil_append]

/-! ### Lines that are counted -/

/-- The default inspector is drawn once if no field is selected, and not at all otherwise. -/
theorem count_drawDefaultLine (h : r.Words) :
    r.told.count drawDefaultLine = if r.fields.isEmpty then 1 else 0 := by
  have hframe : ∀ l ∈ r.frameLines, Option.guard (· == drawDefaultLine) l = none := by
    rw [forall_mem_frameLines]
    exact ⟨rfl, rfl, rfl, rfl, rfl, rfl, rfl, rfl, rfl, rfl⟩
  have htarget : Option.guard (· == drawDefaultLine) r.targetLine = none := rfl
  have hbindTarget : Option.guard (· == drawDefaultLine) r.bindTargetLine = none := rfl
  have hdefault : Option.guard (· == drawDefaultLine) drawDefaultLine = some drawDefaultLine :=
    if_pos (beq_self_eq_true drawDefaultLine)
  have hbind : ∀ p ∈ r.bindings, Option.guard (· == drawDefaultLine) (trimStart (bindLine p.1 p.2)) = none := by
    intro p hp
    refine if_neg fun heq => ?_
    -- a statement that binds has an equals sign
    have hequals := mem_of_assignment? (assignment?_bindLine (h.bindings p hp) p.2)
    rw [eq_of_beq heq] at hequals
    exact absurd hequals (by decide)
  rw [List.count_eq_countP, List.countP_eq_length_filter, ← List.filterMap_eq_filter, filterMap_told hframe, htarget,
    hbindTarget, hdefault, filterMap_map_none hbind, filterMap_map_none fun x _ => rfl,
    filterMap_map_none fun p _ => rfl]
  cases r.target <;> cases r.fields.isEmpty <;> rfl

/-- The typed reference is declared once if the request asks for it, and not at all otherwise. -/
theorem count_targetLine (h : r.Words) (htype : r.type.name ≠ "SerializedProperty".toList) :
    r.told.count r.targetLine = if r.target then 1 else 0 := by
  have hread : (fun l => l == r.targetLine) = fun l => member? l == some (r.type.name, r.type.targetHandle) := by
    funext l
    rw [Bool.eq_iff_iff, beq_iff_eq, beq_iff_eq]
    constructor
    · rintro rfl
      exact member?_targetLine h.name
    · intro hl
      rw [(member?_eq_some_iff.1 hl).1, ← (member?_eq_some_iff.1 (member?_targetLine h.name)).1]
  have hhandles : (r.type.name, r.type.targetHandle) ∉ r.handleNames.map ("SerializedProperty".toList, ·) := by
    intro hmem
    obtain ⟨x, -, hx⟩ := List.mem_map.1 hmem
    exact htype (congrArg Prod.fst hx).symm
  rw [List.count_eq_countP, hread, ← List.count_filterMap, filterMap_member? h, List.count_append,
    List.count_eq_zero_of_not_mem hhandles]
  cases r.target with
  | true => exact List.count_singleton_self
  | false => rfl

theorem mem_told_of_mem_bindLines {l : Text} (h : l ∈ r.bindLines) : trimStart l ∈ r.told := by
  refine List.mem_append_left _ (List.mem_map_of_mem ?_)
  unfold contents classContents
  cases r.type.hasSpace <;> simp [h]

/-- The typed reference is bound once if the request asks for it, and not at all otherwise. -/
theorem count_bindTargetLine (h : r.Words) : r.told.count r.bindTargetLine = if r.target then 1 else 0 := by
  have hbindings : (r.type.targetHandle, r.targetRest) ∉ r.bindings.map fun p => (p.1, bindRest p.2) := by
    intro hmem
    obtain ⟨p, -, hp⟩ := List.mem_map.1 hmem
    have hhead : some 's' = some 't' := congrArg (·.2.head?) hp
    exact absurd hhead (by decide)
  -- the line is read as an assignment to the typed reference, and there are no more of these
  have hle : r.told.count r.bindTargetLine ≤ if r.target then 1 else 0 := calc
    r.told.count r.bindTargetLine ≤ (r.told.filterMap assignment?).count (r.type.targetHandle, r.targetRest) := by
      rw [List.count_filterMap, List.count_eq_countP]
      refine List.countP_mono_left fun l _ hl => ?_
      have hline : l = r.bindTargetLine := beq_iff_eq.1 hl
      rw [hline, beq_iff_eq]
      exact assignment?_bindTargetLine h.name
    _ = if r.target then 1 else 0 := by
      rw [filterMap_assignment? h, List.count_append, List.count_eq_zero_of_not_mem hbindings, Nat.zero_add]
      cases r.target with
      | true => exact List.count_singleton_self
      | false => rfl
  cases htarget : r.target with
  | false => simpa [htarget] using hle
  | true =>
    have hmem : r.bindTargetLine ∈ r.bindLines := by
      rw [bindLines_eq, htarget, if_pos rfl]
      exact List.mem_append_right _ List.mem_cons_self
    have htold : r.bindTargetLine ∈ r.told := mem_told_of_mem_bindLines hmem
    rw [htarget, if_pos rfl] at hle
    exact Nat.le_antisymm hle (List.count_pos_iff.2 htold)

/-! ### Lines in a style -/

theorem statement_bare {style : Style} (hending : style.lineEnding = ['\n'] ∨ style.lineEnding = ['\r', '\n'])
    (hunit : ∀ c ∈ style.indentUnit, isBlank c = true) {l : Nat × Text} (hl : '\r' ∉ l.2) :
    statement (style.bare l) = trimStart l.2 := by
  have hindentation := Style.forall_mem_indentation hunit l.1
  unfold statement Style.bare
  rcases hending with he | he
  · have hreturn : '\r' ∉ style.indentation l.1 ++ l.2 := by
      rw [List.mem_append, not_or]
      exact ⟨fun hmem => absurd (hindentation '\r' hmem) (by decide), hl⟩
    rw [he, List.dropLast_singleton, List.append_nil, dropReturn_of_notMem hreturn, trimStart_append hindentation]
  · have hlast : ['\r', '\n'].dropLast = ['\r'] := rfl
    rw [he, hlast, dropReturn_concat, trimStart_append hindentation]

/-- The statements of the source text, whatever the style indents with and whichever way it ends lines. -/
theorem statements_text {style : Style} (hending : style.lineEnding = ['\n'] ∨ style.lineEnding = ['\r', '\n'])
    (hunit : ∀ c ∈ style.indentUnit, isBlank c = true) (h : r.Words) :
    statements (Layout.text style r.layout) = r.told := by
  have hstyle : style.Regular := ⟨hending, fun hmem => absurd (hunit '\n' hmem) (by decide)⟩
  have hreturn : r.Without '\r' := h.without (by decide) (by decide)
  have hline : ∀ l ∈ Layout.flattenAll 0 r.layout, statement (style.bare l) = trimStart l.2 := fun l hl =>
    statement_bare hending hunit (hreturn.notMem_of_mem_contents (Or.inr rfl) l.2 (snd_mem_contents hl))
  rw [statements, lines_text hstyle (h.without (by decide) (by decide)), List.map_append, List.map_map, told,
    ← map_snd_flattenAll_layout, List.map_map]
  exact congrArg (· ++ [[]]) (List.map_congr_left hline)

/-! ### What statements tell -/

/-- **What statements tell of a request**, read in their order. -/
structure Tells (ls : List Text) (r : EditorRequest) : Prop where
  /-- The handles are those of the selected fields, and then that of the script. -/
  handles : ls.filterMap handle? = r.fields.map (·.name) ++ ["_script".toList]
  /-- The handle of the script is bound, and then each of the others to the property of its name. -/
  bindings : ls.filterMap binding? =
    ("_script".toList, "m_Script".toList) :: r.fields.map fun f => (f.name, f.name)
  /-- The script is drawn, and then each selected field, with its elements if it is a collection. -/
  draws : ls.filterMap draw? = ("_script".toList, false) :: r.fields.map fun f => (f.name, f.isCollection)
  /-- The default inspector is drawn if no field is selected. -/
  fallback : ls.count "base.OnInspectorGUI();".toList = if r.fields.isEmpty then 1 else 0
  /-- The typed reference is declared once, if at all. -/
  target : ls.count ("private ".toList ++ r.type.name ++ ' ' :: '_' :: r.type.name.lowerFirst ++ [';']) =
    if r.target then 1 else 0
  /-- Before all handles comes the declaration of the typed reference, and there are no other members. -/
  members : ls.filterMap member? = (if r.target then [(r.type.name, '_' :: r.type.name.lowerFirst)] else []) ++
    (ls.filterMap handle?).map ("SerializedProperty".toList, ·)
  /-- The typed reference is assigned once, if at all. -/
  bindTarget : ls.count ('_' :: r.type.name.lowerFirst ++ " = target as ".toList ++ r.type.name ++ [';']) =
    if r.target then 1 else 0
  /-- After all bindings comes the assignment of the typed reference, and there are no other assignments. -/
  assignments : ls.filterMap assignment? = (ls.filterMap binding?).map (fun p => (p.1, bindRest p.2)) ++
    if r.target then [('_' :: r.type.name.lowerFirst, "target as ".toList ++ r.type.name)] else []

theorem filterMap_handle? (h : r.Words) (htype : r.type.name ≠ "SerializedProperty".toList) :
    r.told.filterMap handle? = r.handleNames := by
  have hread : handle? = fun l => (member? l).bind fun m =>
      if m.1 = "SerializedProperty".toList then some m.2 else none := funext handle?_eq_member?
  have hhandles : (r.handleNames.map ("SerializedProperty".toList, ·)).filterMap (fun m =>
      if m.1 = "SerializedProperty".toList then some m.2 else none) = r.handleNames.map id :=
    filterMap_map_some fun x _ => if_pos rfl
  rw [hread, ← List.filterMap_filterMap, filterMap_member? h, List.filterMap_append, hhandles, List.map_id]
  cases r.target with
  | true =>
    have htarget : [(r.type.name, r.type.targetHandle)].filterMap (fun m =>
        if m.1 = "SerializedProperty".toList then some m.2 else none) = [] := List.filterMap_cons_none (if_neg htype)
    rw [if_pos rfl, htarget, List.nil_append]
  | false => rfl

theorem filterMap_binding? (h : r.Words) : r.told.filterMap binding? = r.bindings := by
  have hread : binding? = fun l => (assignment? l).bind fun a =>
    (between? "serializedObject.FindProperty(\"".toList "\")".toList a.2).map (a.1, ·) := rfl
  have hbind : ∀ p ∈ r.bindings, (between? "serializedObject.FindProperty(\"".toList "\")".toList
      (bindRest p.2)).map (p.1, ·) = some p := fun p _ => by
    rw [between?_eq_some_iff.2 (show bindRest p.2 = _ from rfl)]
    rfl
  rw [hread, ← List.filterMap_filterMap, filterMap_assignment? h, List.filterMap_append,
    filterMap_map_some hbind, List.map_id']
  cases r.target with
  | true => rw [if_pos rfl, List.filterMap_cons_none rfl, List.filterMap_nil, List.append_nil]
  | false => exact List.append_nil _

/-- **The text of an editor tells its request back.** For a request of words, if the type is not called like the
type of handles, in every style that indents with blanks, the text is made, and its statements declare, bind and
draw what was selected, in its order, and nothing else. -/
theorem text_tells {style : Style} (hending : style.lineEnding = ['\n'] ∨ style.lineEnding = ['\r', '\n'])
    (hunit : ∀ c ∈ style.indentUnit, isBlank c = true) (hname : r.type.name ≠ [])
    (htype : r.type.name ≠ "SerializedProperty".toList) (h : r.Words) :
    ∃ t, r.text style = .ok t ∧ Tells (statements t) r := by
  refine ⟨_, text_eq_ok hname style, ?_⟩
  rw [statements_text hending hunit h]
  have hhandles := filterMap_handle? h htype
  have hbindings := filterMap_binding? h
  exact {
    handles := hhandles
    bindings := hbindings
    draws := filterMap_draw? h
    fallback := count_drawDefaultLine h
    target := count_targetLine h htype
    members := by
      rw [hhandles, filterMap_member? h]
      rfl
    bindTarget := count_bindTargetLine h
    assignments := by
      rw [hbindings, filterMap_assignment? h]
      rfl }

/-- A request with one field selected twice and with a collection. -/
def ofSquad : EditorRequest where
  type := ⟨"Squad".toList, "Game.Units".toList⟩
  fields := ["leader", "members", "leader"].map fun name =>
    ({ name := name.toList, type := if name = "members" then .container .list .text else .text } : Field).profile
  target := true

theorem text_ofSquad_tells : ofSquad.type.name ≠ [] ∧ ofSquad.type.name ≠ "SerializedProperty".toList ∧ ofSquad.Words ∧
    ∃ t, ofSquad.text { indentUnit := " \t".toList, lineEnding := ['\r', '\n'] } = .ok t ∧
      (statements t).filterMap handle? = ["leader", "members", "leader", "_script"].map String.toList ∧
      (statements t).filterMap draw? = [("_script".toList, false), ("leader".toList, false), ("members".toList, true),
        ("leader".toList, false)] ∧
      (statements t).count "private Squad _squad;".toList = 1 := by
  have hname : ofSquad.type.name ≠ [] := by decide
  have htype : ofSquad.type.name ≠ "SerializedProperty".toList := by decide
  have hspace : ofSquad.type.space.all (fun c => isWord c || c == '.') = true := by decide
  have hfields : ofSquad.fields.all (fun f => f.name.all isWord) = true := by decide
  have hwords : ofSquad.Words := {
    name := List.all_eq_true.1 (by decide)
    space := by simpa only [List.all_eq_true, Bool.or_eq_true, beq_iff_eq] using hspace
    fields := by simpa only [List.all_eq_true] using hfields }
  have htells : ∃ t, ofSquad.text { indentUnit := " \t".toList, lineEnding := ['\r', '\n'] } = .ok t ∧
      Tells (statements t) ofSquad := text_tells (Or.inr rfl) (List.all_eq_true.1 (by decide)) hname htype hwords
  obtain ⟨t, ht, h⟩ := htells
  exact ⟨hname, htype, hwords, t, ht, h.handles, h.draws, h.target⟩

end EditorScaffold.EditorRequest
