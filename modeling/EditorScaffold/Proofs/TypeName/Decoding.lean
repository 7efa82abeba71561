import EditorScaffold.Proofs.Json.Decoding
import EditorScaffold.TypeName.Json

/-! # Type names come back from their trees

A type name is a record of two parts, of which the namespace is left out where it is the global one. -/

namespace EditorScaffold.TypeName

open Json (Spelling)
open Json.Reader (Belongs)

/-- The parts of a type name, in their order. -/
def parts (t : TypeName) : List Part := [.name t.name, .space t.space]

/-- How the parts of a type name are spelled. -/
def spelling : Spelling Part where
  label := Part.label
  Spells
    | .name t, v => v = .string t
    | .space t, v => v = .string t
  Default
    | .name _ => False
    | .space t => t = []

/-- **A tree spells a type name.** -/
def Spells (t : TypeName) (v : Json) : Prop := spelling.Node t.parts v

theorem Spells.changed {change : Json → Json} (hchange : Json.KeepsSpelling change) {t : TypeName} {v : Json}
    (h : t.Spells v) : t.Spells (change v) := by
  have hnodup : (t.parts.map spelling.label).Nodup := by
    show (record.keys.map Json.Key.label).Nodup
    decide
  refine hchange.node hnodup (fun {p v} hv => ?_) h
  cases p with
  | name t =>
    obtain rfl : v = .string t := hv
    exact hchange.string t
  | space t =>
    obtain rfl : v = .string t := hv
    exact hchange.string t

theorem decodesParts : record.DecodesParts spelling where
  label := rfl
  nodup := by decide
  part {p v} h := by
    cases p with
    | name t =>
      obtain rfl : v = .string t := h
      rfl
    | space t =>
      obtain rfl : v = .string t := h
      rfl

theorem build_written (t : TypeName) {written : List Part} (h : spelling.Written t.parts written) :
    record.build written = .ok t := by
  have hname : written.findSome? Part.name? = some t.name :=
    h.findSome?_eq Part.name? (.name t.name) (by simp [parts]) rfl (by simp [parts, Part.name?]) id
  have hspace : (written.findSome? Part.space?).getD [] = t.space :=
    h.getD_findSome?_eq Part.space? (.space t.space) (by simp [parts]) rfl (by simp [parts, Part.space?]) id
  show (do
    let name ← Json.required Part.nameKey (written.findSome? Part.name?)
    return (⟨name, (written.findSome? Part.space?).getD []⟩ : TypeName)) = _
  rw [hname, hspace]
  rfl

/-- **A type name is decoded from every tree that spells it.** -/
theorem ofJson_of_spells {t : TypeName} {v : Json} (h : t.Spells v) : ofJson v = .ok t := by
  have hkeys : List.Forall₂ (Belongs spelling) t.parts record.keys :=
    .cons ⟨rfl, nofun⟩ <| .cons ⟨rfl, fun _ => rfl⟩ .nil
  exact Json.Record.ofTree_of_node decodesParts hkeys (fun _ => t.build_written) h

theorem spells_toJson (t : TypeName) : t.Spells t.toJson :=
  .object ⟨[], List.Perm.refl _, nofun⟩ <| .part (p := Part.name _) rfl <| .part (p := Part.space _) rfl .nil

theorem roundTrips : Json.RoundTrips toJson ofJson :=
  Json.roundTrips_of_spells spells_toJson Spells.changed ofJson_of_spells

end EditorScaffold.TypeName
