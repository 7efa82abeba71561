import EditorScaffold.Field.Json
import EditorScaffold.Proofs.FieldType.Reading

/-! # Fields are read from every spelling

A field is a record of five parts; the access, the attributes and whether the field is static are left out where they
are the defaults. -/

namespace EditorScaffold

open Json (Spelling)
open Json.Reader

variable {levels : Nat}

theorem Access.readsTree_read (a : Access) : ReadsTree (Access.read levels) (.string a.spelling) a := by
  have hspelling : Access.ofText a.spelling = .ok a := by cases a <;> rfl
  have hread : ReadsTree Access.readSpelling (.string a.spelling) a := readsTree_named hspelling
  exact fun s hs => (reads_next? (by decide) _).bind (hread s hs)

namespace Field

/-! ### Spellings -/

/-- The parts of a field, in their order. -/
def parts (f : Field) : List Part :=
  [.name f.name, .type f.type, .access f.access, .attributes f.attributes, .isStatic f.isStatic]

/-- How the parts of a field are spelled. -/
def spelling : Spelling Part where
  label := Part.label
  Spells
    | .name t, v => v = .string t
    | .type t, v => t.Spells v
    | .access a, v => v = .string a.spelling
    | .attributes ts, v => v = .array (ts.map .string)
    | .isStatic b, v => v = .bool b
  Default
    | .access a => a = .unrestricted
    | .attributes ts => ts = []
    | .isStatic b => b = false
    | _ => False

/-- **A tree spells a field.** -/
def Spells (f : Field) (v : Json) : Prop := spelling.Node f.parts v

/-- **A changed tree spells the field as well.** -/
theorem Spells.changed {change : Json → Json} (hchange : Json.KeepsSpelling change) {f : Field} {v : Json}
    (h : f.Spells v) : f.Spells (change v) := by
  have hnodup : (f.parts.map spelling.label).Nodup := by
    show (record.keys.map Json.Key.label).Nodup
    decide
  refine hchange.node hnodup (fun {p v} hv => ?_) h
  cases p with
  | name t =>
    obtain rfl : v = .string t := hv
    exact hchange.string t
  | type t => exact FieldType.Spells.changed hchange t hv
  | access a =>
    obtain rfl : v = .string a.spelling := hv
    exact hchange.string _
  | attributes ts =>
    obtain rfl : v = .array (ts.map .string) := hv
    show change (.array (ts.map .string)) = _
    rw [hchange.array, List.map_map]
    exact congrArg Json.array (List.map_congr_left fun t _ => hchange.string t)
  | isStatic b =>
    obtain rfl : v = .bool b := hv
    exact hchange.bool b

theorem Spells.rewritten {f : Field} {v : Json} (h : f.Spells v) : f.Spells v.rewritten :=
  h.changed Json.keepsSpelling_rewritten

/-! ### Reading -/

theorem readsTree_texts (ts : List Text) (hn : (Json.array (ts.map .string)).nesting ≤ levels) :
    ReadsTree (list (fun _ => text) levels) (.array (ts.map .string)) ts := by
  have hspells : List.Forall₂ (fun t v => v = Json.string t) ts (ts.map .string) :=
    List.forall₂_map_right_iff.2 (List.forall₂_same.2 fun _ _ => rfl)
  have hrange : (Json.array (ts.map .string)).InRange := Json.inRange_array.2 fun v hv => by
    obtain ⟨t, -, rfl⟩ := List.mem_map.1 hv
    exact inRange_string t
  refine readsTree_list (fun h _ _ => ?_) hspells hn hrange
  subst h
  exact readsTree_text _

theorem readsParts : ReadsParts record spelling readPart where
  label := rfl
  nodup := by decide
  part {levels p v} h hn hrange := by
    cases p with
    | name t =>
      obtain rfl : v = .string t := h
      exact (readsTree_text t).map Part.name
    | type t => exact (FieldType.readsTree_read h hn hrange).map Part.type
    | access a =>
      obtain rfl : v = .string a.spelling := h
      exact a.readsTree_read.map Part.access
    | attributes ts =>
      obtain rfl : v = .array (ts.map .string) := h
      exact (readsTree_texts ts hn).map Part.attributes
    | isStatic b =>
      obtain rfl : v = .bool b := h
      exact (readsTree_bool b).map Part.isStatic

theorem build_written (f : Field) {written : List Part} (h : spelling.Written f.parts written) :
    record.build written = .ok f := by
  have hname : written.findSome? Part.name? = some f.name :=
    h.findSome?_eq Part.name? (.name f.name) (by simp [parts]) rfl (by simp [parts, Part.name?]) id
  have htype : written.findSome? Part.type? = some f.type :=
    h.findSome?_eq Part.type? (.type f.type) (by simp [parts]) rfl (by simp [parts, Part.type?]) id
  have haccess : (written.findSome? Part.access?).getD .unrestricted = f.access :=
    h.getD_findSome?_eq Part.access? (.access f.access) (by simp [parts]) rfl
      (by simp [parts, Part.access?]) id
  have hattributes : (written.findSome? Part.attributes?).getD [] = f.attributes :=
    h.getD_findSome?_eq Part.attributes? (.attributes f.attributes) (by simp [parts]) rfl
      (by simp [parts, Part.attributes?]) id
  have hstatic : (written.findSome? Part.isStatic?).getD false = f.isStatic :=
    h.getD_findSome?_eq Part.isStatic? (.isStatic f.isStatic) (by simp [parts]) rfl
      (by simp [parts, Part.isStatic?]) id
  show (do
    let name ← Json.required Part.nameKey (written.findSome? Part.name?)
    let type ← Json.required Part.typeKey (written.findSome? Part.type?)
    return (⟨name, type, (written.findSome? Part.access?).getD .unrestricted,
      (written.findSome? Part.attributes?).getD [], (written.findSome? Part.isStatic?).getD false⟩ : Field)) = _
  rw [hname, htype, haccess, hattributes, hstatic]
  rfl

theorem forall₂_belongs (f : Field) : List.Forall₂ (Belongs spelling) f.parts record.keys :=
  .cons ⟨rfl, nofun⟩ <| .cons ⟨rfl, nofun⟩ <| .cons ⟨rfl, fun _ => rfl⟩ <| .cons ⟨rfl, fun _ => rfl⟩ <|
    .cons ⟨rfl, fun _ => rfl⟩ .nil

/-- **A field is read from every tree that spells it.** -/
theorem readsTree_read {f : Field} {v : Json} (h : f.Spells v) (hn : v.nesting ≤ levels) (hrange : v.InRange) :
    ReadsTree (Field.read levels) v f :=
  readsTree_record readsParts f.forall₂_belongs (fun _ => f.build_written) h hn hrange

end Field

end EditorScaffold
