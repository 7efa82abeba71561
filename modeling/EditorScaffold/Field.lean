import EditorScaffold.FieldType
import EditorScaffold.Marker

/-! # Fields

A declared field is judged for serialisation: `serializable` lists the profiles of those fields of a type
that an editor can bind, in the order of declaration. A field counts if it is not static, is not marked as
never serialised, is public or marked as serialised all the same, and has a serialisable type. -/

namespace EditorScaffold

/-- Who can see a field. -/
inductive Access where
  | unrestricted
  | restricted
deriving DecidableEq, Repr

/-- A field as it is declared. -/
structure Field where
  name : Text
  type : FieldType
  access : Access := .unrestricted
  attributes : List Text := []
  isStatic : Bool := false

/-- What an editor needs to know of a field. -/
structure Profile where
  name : Text
  type : FieldType
  isCollection : Bool
  access : Access
  nonSerialized : Bool
  serializeField : Bool

namespace Field

/-- Whether one of the attributes spells a marker. -/
def hasMarker (f : Field) (m : Marker) : Bool := f.attributes.any fun a => Marker.ofText? a = some m

/-- What an editor needs to know of the field. -/
def profile (f : Field) : Profile where
  name := f.name
  type := f.type
  isCollection := f.type.isContainer
  access := f.access
  nonSerialized := f.hasMarker .nonSerialized
  serializeField := f.hasMarker .serializeField

/-- Whether an instance field declared like this is serialised. -/
def isSerializable (f : Field) : Bool :=
  !f.hasMarker .nonSerialized && (f.access = .unrestricted || f.hasMarker .serializeField) &&
    f.type.serializable

/-- The fields that an editor can bind. -/
def serializable (fs : List Field) : List Profile :=
  (fs.filter fun f => !f.isStatic && f.isSerializable).map profile

theorem serializable_append (fs gs : List Field) :
    serializable (fs ++ gs) = serializable fs ++ serializable gs := by
  simp [serializable]

end Field

end EditorScaffold
