import EditorScaffold.Catalogue.Manifest
import EditorScaffold.Proofs.Field.Spelling

/-! # Manifests are read from every spelling

An entry is a record of which only the name must be given, and a manifest is a record of its entries. Whichever way a
manifest and everything inside it is spelled, the same entries are read (`Manifest.entries_spelled`). -/

namespace EditorScaffold

open Json (Spelling)
open Json.Reader

variable {levels : Nat}

namespace Entry

/-- The parts of an entry, in their order. -/
def parts (e : Entry) : List Part :=
  [.script e.script, .name e.type.name, .space e.type.space, .compiled e.compiled, .fields e.fields]

/-- How the parts of an entry are spelled. -/
def spelling : Spelling Part where
  label := Part.label
  Spells
    | .script t, v => v = t.elim .null .string
    | .name t, v => v = .string t
    | .space t, v => v = .string t
    | .compiled b, v => v = .bool b
    | .fields fs, v => ∃ vs, v = .array vs ∧ List.Forall₂ Field.Spells fs vs
  Default
    | .script t => t = none
    | .space t => t = []
    | .compiled b => b = true
    | .fields fs => fs = []
    | .name _ => False

/-- **A tree spells an entry.** -/
def Spells (e : Entry) (v : Json) : Prop := spelling.Node e.parts v

/-- An entry is spelled as well with each number written by its value. -/
theorem Spells.rewritten {e : Entry} {v : Json} (h : e.Spells v) : e.Spells v.rewritten := by
  refine Spelling.Node.rewritten (fun {p v} hv => ?_) h
  cases p with
  | script t =>
    obtain rfl : v = t.elim .null .string := hv
    cases t <;> rfl
  | name t =>
    obtain rfl : v = .string t := hv
    exact Json.rewritten_string t
  | space t =>
    obtain rfl : v = .string t := hv
    exact Json.rewritten_string t
  | compiled b =>
    obtain rfl : v = .bool b := hv
    rfl
  | fields fs =>
    obtain ⟨vs, rfl, hvs⟩ := hv
    exact ⟨_, Json.rewritten_array vs, List.forall₂_map_right_iff.2 (hvs.imp fun _ _ hf => hf.rewritten)⟩

theorem readsParts : ReadsParts record spelling readPart where
  label := rfl
  nodup := by decide
  part {levels p v} h hn hrange := by
    cases p with
    | script t =>
      obtain rfl : v = t.elim .null .string := h
      exact (readsTree_text? t).map Part.script
    | name t =>
      obtain rfl : v = .string t := h
      exact (readsTree_text t).map Part.name
    | space t =>
      obtain rfl : v = .string t := h
      exact (readsTree_text t).map Part.space
    | compiled b =>
      obtain rfl : v = .bool b := h
      exact (readsTree_bool b).map Part.compiled
    | fields fs =>
      obtain ⟨vs, rfl, hvs⟩ := h
      exact (readsTree_list Field.readsTree_read hvs hn hrange).map Part.fields

theorem build_written (e : Entry) {written : List Part} (h : spelling.Written e.parts written) :
    record.build written = .ok e := by
  have hname : written.findSome? Part.name? = some e.type.name :=
    h.findSome?_eq Part.name? (.name e.type.name) (by simp [parts]) rfl
      (by simp [parts, Part.name?]) id
  have hspace : (written.findSome? Part.space?).getD [] = e.type.space :=
    h.getD_findSome?_eq Part.space? (.space e.type.space) (by simp [parts]) rfl
      (by simp [parts, Part.space?]) id
  have hfields : (written.findSome? Part.fields?).getD [] = e.fields :=
    h.getD_findSome?_eq Part.fields? (.fields e.fields) (by simp [parts]) rfl
      (by simp [parts, Part.fields?]) id
  have hscript : (written.findSome? Part.script?).getD none = e.script :=
    h.getD_findSome?_eq Part.script? (.script e.script) (by simp [parts]) rfl
      (by simp [parts, Part.script?]) id
  have hcompiled : (written.findSome? Part.compiled?).getD true = e.compiled :=
    h.getD_findSome?_eq Part.compiled? (.compiled e.compiled) (by simp [parts]) rfl
      (by simp [parts, Part.compiled?]) id
  show (do
    let name ← Json.required Part.nameKey (written.findSome? Part.name?)
    return (⟨⟨name, (written.findSome? Part.space?).getD []⟩, (written.findSome? Part.fields?).getD [],
      (written.findSome? Part.script?).getD none, (written.findSome? Part.compiled?).getD true⟩ : Entry)) = _
  rw [hname, hspace, hfields, hscript, hcompiled]
  rfl

/-- **An entry is read from every tree that spells it.** -/
theorem readsTree_read {e : Entry} {v : Json} (h : e.Spells v) (hn : v.nesting ≤ levels) (hrange : v.InRange) :
    ReadsTree (Entry.read levels) v e := by
  have hkeys : List.Forall₂ (Belongs spelling) e.parts record.keys :=
    .cons ⟨rfl, fun _ => rfl⟩ <| .cons ⟨rfl, nofun⟩ <| .cons ⟨rfl, fun _ => rfl⟩ <| .cons ⟨rfl, fun _ => rfl⟩ <|
      .cons ⟨rfl, fun _ => rfl⟩ .nil
  exact readsTree_record readsParts hkeys (fun _ => e.build_written) h hn hrange

end Entry

namespace Manifest

/-- How the entries of a manifest are spelled. -/
def spelling : Spelling (List Entry) where
  label _ := typesKey
  Spells es v := ∃ vs, v = .array vs ∧ List.Forall₂ Entry.Spells es vs
  Default _ := False

/-- **A tree spells a manifest** of these entries. -/
def Spells (es : List Entry) (v : Json) : Prop := spelling.Node [es] v

/-- A manifest is spelled as well with each number written by its value. -/
theorem Spells.rewritten {es : List Entry} {v : Json} (h : Spells es v) : Spells es v.rewritten := by
  refine Spelling.Node.rewritten (fun {fs v} hv => ?_) h
  obtain ⟨vs, rfl, hvs⟩ := hv
  exact ⟨_, Json.rewritten_array vs, List.forall₂_map_right_iff.2 (hvs.imp fun _ _ he => he.rewritten)⟩

theorem readsParts : ReadsParts record spelling fun levels _ => list Entry.read levels where
  label := rfl
  nodup := by decide
  part h hn hrange := by
    obtain ⟨vs, rfl, hvs⟩ := h
    exact readsTree_list Entry.readsTree_read hvs hn hrange

/-- The entries are read from the text of a tree that spells them. -/
theorem entries_spelled {es : List Entry} {v : Json} (h : Spells es v) (hn : v.nesting ≤ Json.maxNesting)
    (hrange : v.InRange) : entries v.spelled = .ok es := by
  have hkeys : List.Forall₂ (Belongs spelling) [es] record.keys := .cons ⟨rfl, nofun⟩ .nil
  have hbuild (written : List (List Entry)) (h : spelling.Written [es] written) : record.build written = .ok es := by
    obtain ⟨omitted, hperm, ho⟩ := h
    obtain rfl : omitted = [] := List.eq_nil_iff_forall_not_mem.2 ho
    obtain rfl : written = [es] := by simpa using hperm
    rfl
  have hread := readsTree_record readsParts hkeys hbuild h hn hrange [] ended_nil
  rw [List.append_nil] at hread
  exact hread.readAll

/-- **Every spelling of a manifest gives the catalogue of its entries**, or the type that they list twice: with each
number written by its value, and with each as it is spelled. -/
theorem ofText_of_spells {es : List Entry} {v : Json} (h : Spells es v) (hn : v.nesting ≤ 127) (hrange : v.InRange) :
    ofText v.compact = ofEntries es ∧ ofText v.spelled = ofEntries es := by
  have hspelled : entries v.spelled = .ok es := entries_spelled h hn hrange
  have hcompact : entries v.compact = .ok es := by
    rw [v.compact_eq_spelled]
    exact entries_spelled h.rewritten (Json.nesting_rewritten_le hn) (Json.inRange_rewritten hrange)
  rw [ofText, ofText, hspelled, hcompact]
  exact ⟨rfl, rfl⟩

/-- A field that is a list of objects. -/
def targets : Field where
  name := "targets".toList
  type := .container .list (.leaf .object "Transform".toList)
  access := .restricted
  attributes := ["SerializeField".toList]

/-- A type that has the field and is in the global namespace. -/
def turret : Entry where
  type := ⟨"Turret".toList, []⟩
  fields := [targets]

/-- A spelling of the type of the field: the kind comes last, the elements are told by an array. -/
def targetsTypeTree : Json :=
  .object [
    ("element".toList, .array [.string "object".toList, .string "Transform".toList]),
    ("name".toList, .null),
    ("kind".toList, .string "list".toList)]

/-- A spelling of the field: an array without its last item. -/
def targetsTree : Json :=
  .array [.string "targets".toList, targetsTypeTree, .string "non_public".toList,
    .array [.string "SerializeField".toList]]

/-- A spelling of a manifest of the type, with a key that is not known and with a default written out. -/
def turretTree : Json :=
  .object [
    ("version".toList, .number ⟨false, 1, [5], some 1⟩),
    ("types".toList, .array [.object [
      ("fields".toList, .array [targetsTree]),
      ("compiled".toList, .bool true),
      ("name".toList, .string "Turret".toList)]])]

theorem targetsTypeTree_spells : targets.type.Spells targetsTypeTree := by
  have helement : FieldType.Spells (.leaf .object "Transform".toList)
      (.array [.string "object".toList, .string "Transform".toList]) := by
    show (FieldType.Kind.leaf .object).Node _ _
    exact @Spelling.Node.array _ _ _ [none, some .name] [] _ rfl nofun (.cons rfl (.cons rfl .nil))
  show (FieldType.Kind.container .list).Node _ _
  refine @Spelling.Node.object _ _ _ [some FieldType.Slot.element, none] _ ⟨[], List.Perm.swap _ _ [], nofun⟩ ?_
  exact @Spelling.Members.part _ _ _ (some FieldType.Slot.element) _ _ _ helement
    (.other (by decide) (@Spelling.Members.part _ _ _ none _ _ _ rfl .nil))

theorem targetsTree_spells : targets.Spells targetsTree := by
  refine @Spelling.Node.array _ _ _ [.name _, .type _, .access _, .attributes _] [.isStatic false] _ rfl ?_ ?_
  · exact fun p hp => List.mem_singleton.1 hp ▸ rfl
  · exact .cons rfl (.cons targetsTypeTree_spells (.cons rfl (.cons rfl .nil)))

theorem turretTree_spells : Spells [turret] turretTree := by
  have hentry : turret.Spells (.object [
      ("fields".toList, .array [targetsTree]),
      ("compiled".toList, .bool true),
      ("name".toList, .string "Turret".toList)]) := by
    have hswap := List.Perm.swap (Entry.Part.space []) (.name "Turret".toList) [.script none]
    have hperm : ([.fields [targets], .compiled true, .name "Turret".toList] ++ [.space [], .script none] :
        List Entry.Part).Perm turret.parts := ((hswap.cons _).cons _).trans (List.reverse_perm turret.parts)
    refine .object ⟨_, hperm, ?_⟩ ?_
    · intro p hp
      obtain rfl | hp := List.mem_cons.1 hp
      · rfl
      · exact List.mem_singleton.1 hp ▸ rfl
    · exact .part ⟨_, rfl, .cons targetsTree_spells .nil⟩ (.part rfl (.part rfl .nil))
  refine @Spelling.Node.object _ _ _ [[turret]] _ ⟨[], List.Perm.refl _, nofun⟩ ?_
  exact .other (by decide) (.part ⟨_, rfl, .cons hentry .nil⟩ .nil)

/-- The spelling gives the catalogue of the type. -/
theorem ofText_turretTree :
    Spells [turret] turretTree ∧ turretTree.nesting ≤ 127 ∧ turretTree.InRange ∧
      ofText turretTree.compact = ofEntries [turret] ∧ ofText turretTree.spelled = ofEntries [turret] := by
  have hnesting : turretTree.nesting ≤ 127 := by decide
  have hrange : turretTree.InRange := by
    unfold Json.InRange
    decide +kernel
  exact ⟨turretTree_spells, hnesting, hrange, ofText_of_spells turretTree_spells hnesting hrange⟩

end Manifest

end EditorScaffold
