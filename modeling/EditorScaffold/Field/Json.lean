import EditorScaffold.Field
import EditorScaffold.FieldType.Json

/-! # Fields in JSON

A declared field is a record whose name and type must be given; a profile is a record of which every part
must be given. -/

namespace EditorScaffold

namespace Access

/-- The spelling of an access. -/
def spelling : Access → Text
  | unrestricted => "public".toList
  | restricted => "non_public".toList

/-- All accesses. -/
def all : List Access := [unrestricted, restricted]

/-- The access that a text spells. -/
def ofText (t : Text) : Except Json.Fault Access :=
  match all.find? (·.spelling = t) with
  | some a => .ok a
  | none => .error (.unknownVariant t (all.map spelling))

/-- The access that a tree spells: by its spelling, or by an object that has the spelling as its only key
and null under it. -/
def ofJson : Json → Except Json.Fault Access
  | .string t => ofText t
  | .object [(key, v)] => do
    let a ← ofText key
    match v with
    | .null => return a
    | v => throw (.wrongType v.found "unit".toList)
  | .object _ => .error .notSingleKey
  | v => .error (.wrongType v.found "string or map".toList)

/-- An access as a tree. -/
def toJson (a : Access) : Json := .string a.spelling

/-- Reads the spelling of an access. -/
def readSpelling : Json.Reader Access :=
  Json.Reader.placed do
    let t ← Json.Reader.scalar FieldType.Kind.wanted fun
      | .string t => some t
      | _ => none
    Json.Reader.ofExcept (ofText t)

/-- Reads the spelling of an access as the key of an object. -/
def readKey : Json.Reader Access := do
  match ← Json.Reader.next? with
  | none => Json.Reader.stopPeeked (.endOfBracket .object)
  | some '"' => readSpelling
  | some '\x7d' => Json.Reader.stopPeeked .expectedValue
  | some _ => Json.Reader.stopPeeked .keyNotString

/-- Reads an access. -/
def read (levels : Nat) : Json.Reader Access := do
  match ← Json.Reader.next? with
  | none => Json.Reader.stopPeeked .endOfValue
  | some '"' => readSpelling
  | some '\x7b' =>
    if levels = 0 then Json.Reader.stopPeeked .tooDeep
    else
      Json.Reader.skip 1
      let a ← readKey
      Json.Reader.colon
      Json.Reader.unit
      match ← Json.Reader.next? with
      | some '\x7d' => Json.Reader.skip 1 *> pure a
      | some _ => Json.Reader.stopHere .expectedValue
      | none => Json.Reader.stopHere (.endOfBracket .object)
  | some _ => Json.Reader.stopPeeked .expectedValue

end Access

namespace Field

/-- A part of a declared field. -/
inductive Part where
  | name (t : Text)
  | type (t : FieldType)
  | access (a : Access)
  | attributes (ts : List Text)
  | isStatic (b : Bool)

namespace Part

/-- The key of the name. -/
def nameKey : Text := "name".toList

/-- The key of the type. -/
def typeKey : Text := "type".toList

/-- The key of the access. -/
def accessKey : Text := "accessibility".toList

/-- The key of the attributes. -/
def attributesKey : Text := "attributes".toList

/-- The key of whether the field is static. -/
def staticKey : Text := "static".toList

/-- The key that a part belongs to. -/
def label : Part → Text
  | name _ => nameKey
  | type _ => typeKey
  | access _ => accessKey
  | attributes _ => attributesKey
  | isStatic _ => staticKey

/-- The name, if the part is one. -/
def name? : Part → Option Text
  | name t => some t
  | _ => none

/-- The type, if the part is one. -/
def type? : Part → Option FieldType
  | type t => some t
  | _ => none

/-- The access, if the part is one. -/
def access? : Part → Option Access
  | access a => some a
  | _ => none

/-- The attributes, if the part is them. -/
def attributes? : Part → Option (List Text)
  | attributes ts => some ts
  | _ => none

/-- Whether the field is static, if the part says so. -/
def isStatic? : Part → Option Bool
  | isStatic b => some b
  | _ => none

end Part

open Field.Part in
/-- How a declared field is spelled. -/
def record : Json.Record Part Field where
  title := "FieldMeta".toList
  keys := [⟨nameKey, true⟩, ⟨typeKey, true⟩, ⟨accessKey, false⟩, ⟨attributesKey, false⟩, ⟨staticKey, false⟩]
  label := label
  part label v :=
    if label = nameKey then Part.name <$> Json.asString v
    else if label = typeKey then Part.type <$> FieldType.ofJson v
    else if label = accessKey then Part.access <$> Access.ofJson v
    else if label = attributesKey then Part.attributes <$> Json.asList Json.asString v
    else Part.isStatic <$> Json.asBool v
  build parts := do
    let name ← Json.required nameKey (parts.findSome? name?)
    let type ← Json.required typeKey (parts.findSome? type?)
    return {
      name
      type
      access := (parts.findSome? access?).getD .unrestricted
      attributes := (parts.findSome? attributes?).getD []
      isStatic := (parts.findSome? isStatic?).getD false }

/-- The field that a tree spells. -/
def ofJson (v : Json) : Except Json.Fault Field := record.ofTree v

open Field.Part in
/-- A field as a tree. -/
def toJson (f : Field) : Json :=
  .object [(nameKey, .string f.name), (typeKey, f.type.toJson), (accessKey, f.access.toJson),
    (attributesKey, .array (f.attributes.map .string)), (staticKey, .bool f.isStatic)]

open Field.Part in
/-- Reads the value of a key. -/
def readPart (levels : Nat) (label : Text) : Json.Reader Part :=
  if label = nameKey then Part.name <$> Json.Reader.text
  else if label = typeKey then Part.type <$> FieldType.read levels
  else if label = accessKey then Part.access <$> Access.read levels
  else if label = attributesKey then Part.attributes <$> Json.Reader.list (fun _ => Json.Reader.text) levels
  else Part.isStatic <$> Json.Reader.bool

/-- Reads a field with at most `levels` brackets inside each other. -/
def read (levels : Nat) : Json.Reader Field := record.read readPart levels

end Field

namespace Profile

/-- A part of a profile. -/
inductive Part where
  | name (t : Text)
  | type (t : FieldType)
  | isCollection (b : Bool)
  | access (a : Access)
  | nonSerialized (b : Bool)
  | serializeField (b : Bool)

namespace Part

/-- The key of the name. -/
def nameKey : Text := "name".toList

/-- The key of the type. -/
def typeKey : Text := "declared_type".toList

/-- The key of whether the type is a container. -/
def collectionKey : Text := "is_collection".toList

/-- The key of the access. -/
def accessKey : Text := "accessibility".toList

/-- The key of whether the field is marked as never serialised. -/
def nonSerializedKey : Text := "has_non_serialized_marker".toList

/-- The key of whether the field is marked as serialised all the same. -/
def serializeFieldKey : Text := "has_explicit_serialize_marker".toList

/-- The key that a part belongs to. -/
def label : Part → Text
  | name _ => nameKey
  | type _ => typeKey
  | isCollection _ => collectionKey
  | access _ => accessKey
  | nonSerialized _ => nonSerializedKey
  | serializeField _ => serializeFieldKey

/-- The name, if the part is one. -/
def name? : Part → Option Text
  | name t => some t
  | _ => none

/-- The type, if the part is one. -/
def type? : Part → Option FieldType
  | type t => some t
  | _ => none

/-- Whether the type is a container, if the part says so. -/
def isCollection? : Part → Option Bool
  | isCollection b => some b
  | _ => none

/-- The access, if the part is one. -/
def access? : Part → Option Access
  | access a => some a
  | _ => none

/-- Whether the field is marked as never serialised, if the part says so. -/
def nonSerialized? : Part → Option Bool
  | nonSerialized b => some b
  | _ => none

/-- Whether the field is marked as serialised all the same, if the part says so. -/
def serializeField? : Part → Option Bool
  | serializeField b => some b
  | _ => none

end Part

open Profile.Part in
/-- How a profile is spelled. -/
def record : Json.Record Part Profile where
  title := "FieldDescriptor".toList
  keys := [⟨nameKey, true⟩, ⟨typeKey, true⟩, ⟨collectionKey, true⟩, ⟨accessKey, true⟩,
    ⟨nonSerializedKey, true⟩, ⟨serializeFieldKey, true⟩]
  label := label
  part label v :=
    if label = nameKey then Part.name <$> Json.asString v
    else if label = typeKey then Part.type <$> FieldType.ofJson v
    else if label = collectionKey then Part.isCollection <$> Json.asBool v
    else if label = accessKey then Part.access <$> Access.ofJson v
    else if label = nonSerializedKey then Part.nonSerialized <$> Json.asBool v
    else Part.serializeField <$> Json.asBool v
  build parts := do
    let name ← Json.required nameKey (parts.findSome? name?)
    let type ← Json.required typeKey (parts.findSome? type?)
    let isCollection ← Json.required collectionKey (parts.findSome? isCollection?)
    let access ← Json.required accessKey (parts.findSome? access?)
    let nonSerialized ← Json.required nonSerializedKey (parts.findSome? nonSerialized?)
    let serializeField ← Json.required serializeFieldKey (parts.findSome? serializeField?)
    return { name, type, isCollection, access, nonSerialized, serializeField }

/-- The profile that a tree spells. -/
def ofJson (v : Json) : Except Json.Fault Profile := record.ofTree v

open Profile.Part in
/-- A profile as a tree. -/
def toJson (p : Profile) : Json :=
  .object [(nameKey, .string p.name), (typeKey, p.type.toJson), (collectionKey, .bool p.isCollection),
    (accessKey, p.access.toJson), (nonSerializedKey, .bool p.nonSerialized),
    (serializeFieldKey, .bool p.serializeField)]

end Profile

end EditorScaffold
