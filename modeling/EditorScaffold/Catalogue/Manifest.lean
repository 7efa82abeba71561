import EditorScaffold.Catalogue.Basic
import EditorScaffold.Field.Json
import EditorScaffold.Store.Basic

/-! # Type manifests

A manifest is the JSON text of a catalogue: an object with the list of entries under `types`. What is wrong
with one is told with its place in the text, as a label on the last byte that was read. -/

namespace EditorScaffold

namespace Entry

/-- A part of an entry. -/
inductive Part where
  | script (t : Option Text)
  | name (t : Text)
  | space (t : Text)
  | compiled (b : Bool)
  | fields (fs : List Field)

namespace Part

/-- The key of the script. -/
def scriptKey : Text := "script".toList

/-- The key of the name. -/
def nameKey : Text := "name".toList

/-- The key of the namespace. -/
def spaceKey : Text := "namespace".toList

/-- The key of whether the type compiles. -/
def compiledKey : Text := "compiled".toList

/-- The key of the fields. -/
def fieldsKey : Text := "fields".toList

/-- The key that a part belongs to. -/
def label : Part → Text
  | script _ => scriptKey
  | name _ => nameKey
  | space _ => spaceKey
  | compiled _ => compiledKey
  | fields _ => fieldsKey

/-- The script, if the part is one. -/
def script? : Part → Option (Option Text)
  | script t => some t
  | _ => none

/-- The name, if the part is one. -/
def name? : Part → Option Text
  | name t => some t
  | _ => none

/-- The namespace, if the part is one. -/
def space? : Part → Option Text
  | space t => some t
  | _ => none

/-- Whether the type compiles, if the part says so. -/
def compiled? : Part → Option Bool
  | compiled b => some b
  | _ => none

/-- The fields, if the part is them. -/
def fields? : Part → Option (List Field)
  | fields fs => some fs
  | _ => none

end Part

/-- The script that a tree spells, null for none. -/
def scriptOfJson : Json → Except Json.Fault (Option Text)
  | .null => .ok none
  | v => some <$> Json.asString v

open Entry.Part in
/-- How an entry is spelled. -/
def record : Json.Record Part Entry where
  title := "TypeEntry".toList
  keys := [⟨scriptKey, false⟩, ⟨nameKey, true⟩, ⟨spaceKey, false⟩, ⟨compiledKey, false⟩, ⟨fieldsKey, false⟩]
  label := label
  part label v :=
    if label = scriptKey then Part.script <$> scriptOfJson v
    else if label = nameKey then Part.name <$> Json.asString v
    else if label = spaceKey then Part.space <$> Json.asString v
    else if label = compiledKey then Part.compiled <$> Json.asBool v
    else Part.fields <$> Json.asList Field.ofJson v
  build parts := do
    let name ← Json.required nameKey (parts.findSome? name?)
    return {
      type := ⟨name, (parts.findSome? space?).getD []⟩
      fields := (parts.findSome? fields?).getD []
      script := (parts.findSome? script?).getD none
      compiled := (parts.findSome? compiled?).getD true }

open Entry.Part in
/-- Reads the value of a key. -/
def readPart (levels : Nat) (label : Text) : Json.Reader Part :=
  if label = scriptKey then Part.script <$> Json.Reader.text?
  else if label = nameKey then Part.name <$> Json.Reader.text
  else if label = spaceKey then Part.space <$> Json.Reader.text
  else if label = compiledKey then Part.compiled <$> Json.Reader.bool
  else Part.fields <$> Json.Reader.list Field.read levels

/-- Reads an entry with at most `levels` brackets inside each other. -/
def read (levels : Nat) : Json.Reader Entry := record.read readPart levels

end Entry

namespace Manifest

/-- The key of the entries. -/
def typesKey : Text := "types".toList

/-- How a manifest is spelled. -/
def record : Json.Record (List Entry) (List Entry) where
  title := "Manifest".toList
  keys := [⟨typesKey, true⟩]
  label _ := typesKey
  part _ v := Json.asList Entry.record.ofTree v
  build parts := Json.required typesKey parts.head?

/-- The entries that a text spells. -/
def entries (t : Text) : Except Json.Error (List Entry) :=
  (record.read (fun levels _ => Json.Reader.list Entry.read levels) Json.maxNesting).readAll t

/-! ### Errors -/

/-- Why there is no catalogue. -/
inductive Error where
  | unreadable (path : Text) (cause : FileError)
  | malformed (cause : Json.Error) (label : Option Nat)
  | repeated (type : TypeName)
deriving DecidableEq

namespace Error

/-- The wording of an error. -/
def message : Error → Text
  | unreadable path _ => "cannot read type manifest '".toList ++ path ++ ['\'']
  | malformed cause _ => "invalid type manifest: ".toList ++ cause.message
  | repeated t => "type '".toList ++ t.qualified ++ "' is declared more than once".toList

/-- The code of an error. -/
def code : Error → Text
  | unreadable _ _ => "inspectorgen::schema::io".toList
  | malformed _ _ => "inspectorgen::schema::syntax".toList
  | repeated _ => "inspectorgen::schema::duplicate_type".toList

/-- What may help with an error. -/
def help? : Error → Option Text
  | malformed _ _ =>
    some <| "the manifest is a JSON object with a \x60types\x60 array; see ".toList ++
      Json.ticked "inspectorgen --help".toList
  | _ => none

/-- The byte that an error is about. -/
def label? : Error → Option Nat
  | malformed _ label => label
  | _ => none

end Error

/-! ### Catalogues -/

/-- The label for the place where reading stopped, or for the start of the text if no place is told. -/
def labelOf (t : Text) (e : Json.Error) : Option Nat :=
  match e.position with
  | some p => p.label? t.bytes
  | none => some 0

/-- The catalogue of a list of entries. -/
def ofEntries (es : List Entry) : Except Error Catalogue :=
  match Catalogue.ofEntries es with
  | .ok c => .ok c
  | .error t => .error (.repeated t)

/-- The catalogue that a text spells. -/
def ofText (t : Text) : Except Error Catalogue :=
  match entries t with
  | .ok es => ofEntries es
  | .error e => .error (.malformed e (labelOf t e))

variable {m : Type → Type} [Monad m] [FileStore m]

/-- The catalogue that the file at a path spells. -/
def load (path : Text) : ExceptT Error m Catalogue := ExceptT.mk do
  match ← (FileStore.readText (m := m) path).run with
  | .ok t => return ofText t
  | .error e => return .error (.unreadable path e)

end Manifest

end EditorScaffold
