import EditorScaffold.Proofs.Field.Spelling
import EditorScaffold.Proofs.FieldType.Decoding
import EditorScaffold.Proofs.TypeName.Decoding

/-! # Fields come back from their trees

Declared fields and profiles are records with a type and an access among their parts. All that a scaffold is made from
comes back from the trees it is written as (`Json.scaffold_roundTrips`), the members of the trees sorted or not. -/

namespace EditorScaffold

open Json (Spelling)
open Json.Reader (Belongs)

theorem Access.ofJson_spelling (a : Access) : Access.ofJson (.string a.spelling) = .ok a := by cases a <;> rfl

/-! ### Declared fields -/

namespace Field

theorem asList_texts (ts : List Text) : Json.asList Json.asString (.array (ts.map .string)) = .ok ts :=
  Json.asList_of_forall₂ (P := fun t v => v = .string t) (fun h => h ▸ rfl)
    (List.forall₂_map_right_iff.2 (List.forall₂_same.2 fun _ _ => rfl))

theorem decodesParts : record.DecodesParts spelling where
  label := rfl
  nodup := by decide
  part {p v} h := by
    cases p with
    | name t =>
      obtain rfl : v = .string t := h
      rfl
    | type t => exact congrArg (Part.type <$> ·) (FieldType.ofJson_of_spells h)
    | access a =>
      obtain rfl : v = .string a.spelling := h
      exact congrArg (Part.access <$> ·) a.ofJson_spelling
    | attributes ts =>
      obtain rfl : v = .array (ts.map .string) := h
      exact congrArg (Part.attributes <$> ·) (asList_texts ts)
    | isStatic b =>
      obtain rfl : v = .bool b := h
      rfl

/-- **A field is decoded from every tree that spells it.** -/
theorem ofJson_of_spells {f : Field} {v : Json} (h : f.Spells v) : ofJson v = .ok f :=
  Json.Record.ofTree_of_node decodesParts f.forall₂_belongs (fun _ => f.build_written) h

theorem spells_toJson (f : Field) : f.Spells f.toJson :=
  .object ⟨[], List.Perm.refl _, nofun⟩ <| .part (p := Part.name _) rfl <|
    .part (p := Part.type _) f.type.spells_toJson <| .part (p := Part.access _) rfl <|
    .part (p := Part.attributes _) rfl <| .part (p := Part.isStatic _) rfl .nil

theorem roundTrips : Json.RoundTrips toJson ofJson :=
  Json.roundTrips_of_spells spells_toJson Spells.changed ofJson_of_spells

end Field

/-! ### Profiles -/

namespace Profile

/-- The parts of a profile, in their order. -/
def parts (p : Profile) : List Part :=
  [.name p.name, .type p.type, .isCollection p.isCollection, .access p.access, .nonSerialized p.nonSerialized,
    .serializeField p.serializeField]

/-- How the parts of a profile are spelled. -/
def spelling : Spelling Part where
  label := Part.label
  Spells
    | .name t, v => v = .string t
    | .type t, v => t.Spells v
    | .access a, v => v = .string a.spelling
    | .isCollection b, v | .nonSerialized b, v | .serializeField b, v => v = .bool b
  Default _ := False

/-- **A tree spells a profile.** -/
def Spells (p : Profile) (v : Json) : Prop := spelling.Node p.parts v

theorem Spells.changed {change : Json → Json} (hchange : Json.KeepsSpelling change) {p : Profile} {v : Json}
    (h : p.Spells v) : p.Spells (change v) := by
  have hnodup : (p.parts.map spelling.label).Nodup := by
    show (record.keys.map Json.Key.label).Nodup
    decide
  refine hchange.node hnodup (fun {p v} hv => ?_) h
  cases p with
  | name t =>
    obtain rfl : v = .string t := hv
    exact hchange.string t
  | type t => exact FieldType.Spells.changed hchange t hv
  | access a =>
    obtain rfl : v = .string a.spelling := hv
    exact hchange.string _
  | isCollection b | nonSerialized b | serializeField b =>
    obtain rfl : v = .bool b := hv
    exact hchange.bool b

theorem decodesParts : record.DecodesParts spelling where
  label := rfl
  nodup := by decide
  part {p v} h := by
    cases p with
    | name t =>
      obtain rfl : v = .string t := h
      rfl
    | type t => exact congrArg (Part.type <$> ·) (FieldType.ofJson_of_spells h)
    | access a =>
      obtain rfl : v = .string a.spelling := h
      exact congrArg (Part.access <$> ·) a.ofJson_spelling
    | isCollection b | nonSerialized b | serializeField b =>
      obtain rfl : v = .bool b := h
      rfl

theorem build_written (p : Profile) {written : List Part} (h : spelling.Written p.parts written) :
    record.build written = .ok p := by
  have hname : written.findSome? Part.name? = some p.name :=
    h.findSome?_eq Part.name? (.name p.name) (by simp [parts]) rfl (by simp [parts, Part.name?]) id
  have htype : written.findSome? Part.type? = some p.type :=
    h.findSome?_eq Part.type? (.type p.type) (by simp [parts]) rfl (by simp [parts, Part.type?]) id
  have hcollection : written.findSome? Part.isCollection? = some p.isCollection :=
    h.findSome?_eq Part.isCollection? (.isCollection p.isCollection) (by simp [parts]) rfl
      (by simp [parts, Part.isCollection?]) id
  have haccess : written.findSome? Part.access? = some p.access :=
    h.findSome?_eq Part.access? (.access p.access) (by simp [parts]) rfl (by simp [parts, Part.access?]) id
  have hnonSerialized : written.findSome? Part.nonSerialized? = some p.nonSerialized :=
    h.findSome?_eq Part.nonSerialized? (.nonSerialized p.nonSerialized) (by simp [parts]) rfl
      (by simp [parts, Part.nonSerialized?]) id
  have hserializeField : written.findSome? Part.serializeField? = some p.serializeField :=
    h.findSome?_eq Part.serializeField? (.serializeField p.serializeField) (by simp [parts]) rfl
      (by simp [parts, Part.serializeField?]) id
  show (do
    let name ← Json.required Part.nameKey (written.findSome? Part.name?)
    let type ← Json.required Part.typeKey (written.findSome? Part.type?)
    let isCollection ← Json.required Part.collectionKey (written.findSome? Part.isCollection?)
    let access ← Json.required Part.accessKey (written.findSome? Part.access?)
    let nonSerialized ← Json.required Part.nonSerializedKey (written.findSome? Part.nonSerialized?)
    let serializeField ← Json.required Part.serializeFieldKey (written.findSome? Part.serializeField?)
    return (⟨name, type, isCollection, access, nonSerialized, serializeField⟩ : Profile)) = _
  rw [hname, htype, hcollection, haccess, hnonSerialized, hserializeField]
  rfl

/-- **A profile is decoded from every tree that spells it.** -/
theorem ofJson_of_spells {p : Profile} {v : Json} (h : p.Spells v) : ofJson v = .ok p := by
  have hkeys : List.Forall₂ (Belongs spelling) p.parts record.keys :=
    .cons ⟨rfl, nofun⟩ <| .cons ⟨rfl, nofun⟩ <| .cons ⟨rfl, nofun⟩ <| .cons ⟨rfl, nofun⟩ <| .cons ⟨rfl, nofun⟩ <|
      .cons ⟨rfl, nofun⟩ .nil
  exact Json.Record.ofTree_of_node decodesParts hkeys (fun _ => p.build_written) h

theorem spells_toJson (p : Profile) : p.Spells p.toJson :=
  .object ⟨[], List.Perm.refl _, nofun⟩ <| .part (p := Part.name _) rfl <|
    .part (p := Part.type _) p.type.spells_toJson <| .part (p := Part.isCollection _) rfl <|
    .part (p := Part.access _) rfl <| .part (p := Part.nonSerialized _) rfl <|
    .part (p := Part.serializeField _) rfl .nil

theorem roundTrips : Json.RoundTrips toJson ofJson :=
  Json.roundTrips_of_spells spells_toJson Spells.changed ofJson_of_spells

end Profile

/-- **All that a scaffold is made from comes back from its tree**: type names, types with other types at any depth
inside them, declared fields and profiles. No two type names have the same tree, nor have two types, fields or
profiles. -/
theorem Json.scaffold_roundTrips :
    Json.RoundTrips TypeName.toJson TypeName.ofJson ∧ Json.RoundTrips FieldType.toJson FieldType.ofJson ∧
      Json.RoundTrips Field.toJson Field.ofJson ∧ Json.RoundTrips Profile.toJson Profile.ofJson :=
  ⟨TypeName.roundTrips, FieldType.roundTrips, Field.roundTrips, Profile.roundTrips⟩

end EditorScaffold
