import EditorScaffold.Json.Record
import EditorScaffold.TypeName

/-! # Type names in JSON

A type name is a record of a name and a namespace; the namespace may be left out for the global one. -/

namespace EditorScaffold.TypeName

/-- A part of a type name. -/
inductive Part where
  | name (t : Text)
  | space (t : Text)

namespace Part

/-- The key of the name. -/
def nameKey : Text := "name".toList

/-- The key of the namespace. -/
def spaceKey : Text := "namespace".toList

/-- The key that a part belongs to. -/
def label : Part → Text
  | name _ => nameKey
  | space _ => spaceKey

/-- The name, if the part is one. -/
def name? : Part → Option Text
  | name t => some t
  | _ => none

/-- The namespace, if the part is one. -/
def space? : Part → Option Text
  | space t => some t
  | _ => none

end Part

/-- How a type name is spelled. -/
def record : Json.Record Part TypeName where
  title := "TypeRef".toList
  keys := [⟨Part.nameKey, true⟩, ⟨Part.spaceKey, false⟩]
  label := Part.label
  part label v :=
    if label = Part.nameKey then Part.name <$> Json.asString v else Part.space <$> Json.asString v
  build parts := do
    let name ← Json.required Part.nameKey (parts.findSome? Part.name?)
    return ⟨name, (parts.findSome? Part.space?).getD []⟩

/-- The type name that a tree spells. -/
def ofJson (v : Json) : Except Json.Fault TypeName := record.ofTree v

/-- A type name as a tree. -/
def toJson (t : TypeName) : Json :=
  .object [(Part.nameKey, .string t.name), (Part.spaceKey, .string t.space)]

end EditorScaffold.TypeName
