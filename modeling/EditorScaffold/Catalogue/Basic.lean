import EditorScaffold.Field
import EditorScaffold.TypeName

/-! # Catalogues of script types

A catalogue lists script types with their declared fields; no type is listed twice. A handle, as a user
gives it, is looked up as a script, then as a qualified name, then as a simple name, and the first entry in
the order of the catalogue counts; an entry that does not compile hides those after it. -/

namespace EditorScaffold

/-- A script type with its fields. -/
structure Entry where
  type : TypeName
  fields : List Field := []
  script : Option Text := none
  compiled : Bool := true

/-- Where types and their fields are found. -/
structure TypeSource where
  /-- The type that a handle stands for. -/
  resolve : Text → Option TypeName
  /-- The declared fields of a type. -/
  fields : TypeName → List Field
  /-- The script that declares a type. -/
  scriptPath : TypeName → Option Text := fun _ => none

namespace TypeSource

/-- The fields of a type that an editor can bind. -/
def profiles (s : TypeSource) (t : TypeName) : List Profile := Field.serializable (s.fields t)

/-- The fields that an editor can bind, of the type that a handle stands for. -/
def profilesOf (s : TypeSource) (handle : Text) : List Profile :=
  match s.resolve handle with
  | some t => s.profiles t
  | none => []

end TypeSource

namespace Entry

/-! ### Repeated types -/

/-- The first type that is among those seen before it. -/
def firstRepeat (seen : List TypeName) : List TypeName → Option TypeName
  | [] => none
  | t :: ts => if t ∈ seen then some t else firstRepeat (t :: seen) ts

theorem firstRepeat_eq_none_iff {seen ts : List TypeName} :
    firstRepeat seen ts = none ↔ ts.Nodup ∧ ∀ t ∈ ts, t ∉ seen := by
  induction ts generalizing seen with
  | nil => simp [firstRepeat]
  | cons t ts ih =>
    rw [firstRepeat]
    split
    · next h => simp [h]
    · next h =>
      rw [ih]
      simp only [List.nodup_cons, List.mem_cons, not_or, forall_eq_or_imp]
      constructor
      · rintro ⟨hn, hs⟩
        exact ⟨⟨fun ht => (hs t ht).1 rfl, hn⟩, h, fun u hu => (hs u hu).2⟩
      · rintro ⟨⟨ht, hn⟩, _, hs⟩
        exact ⟨hn, fun u hu => ⟨fun e => ht (e ▸ hu), hs u hu⟩⟩

end Entry

/-- A list of script types, none of them twice. -/
structure Catalogue where
  entries : List Entry
  nodup : (entries.map Entry.type).Nodup

namespace Catalogue

/-- The catalogue of a list of entries, or the first type that is listed twice. -/
def ofEntries (es : List Entry) : Except TypeName Catalogue :=
  match h : Entry.firstRepeat [] (es.map Entry.type) with
  | none => .ok ⟨es, (Entry.firstRepeat_eq_none_iff.1 h).1⟩
  | some t => .error t

/-- The entry of a type. -/
def entry? (c : Catalogue) (t : TypeName) : Option Entry := c.entries.find? (·.type = t)

/-- The entry that a handle stands for. -/
def find? (c : Catalogue) (handle : Text) : Option Entry :=
  c.entries.find? (·.script = some handle)
    <|> c.entries.find? (·.type.qualified = handle)
    <|> c.entries.find? (·.type.name = handle)

/-- The type that a handle stands for, if it compiles. -/
def resolve (c : Catalogue) (handle : Text) : Option TypeName :=
  ((c.find? handle).filter (·.compiled)).map Entry.type

/-- The declared fields of a type, static ones left out. -/
def fields (c : Catalogue) (t : TypeName) : List Field :=
  match c.entry? t with
  | some e => e.fields.filter (!·.isStatic)
  | none => []

/-- The script that declares a type. -/
def scriptPath (c : Catalogue) (t : TypeName) : Option Text := (c.entry? t).bind Entry.script

/-- The catalogue as a place where types are found. -/
def source (c : Catalogue) : TypeSource where
  resolve := c.resolve
  fields := c.fields
  scriptPath := c.scriptPath

end Catalogue

end EditorScaffold
