import EditorScaffold.Text.Basic

/-! # Markers

Two attributes of a field matter to serialisation: one forbids it and one asks for it. Each has a
canonical name and other spellings, and no spelling belongs to both. -/

namespace EditorScaffold

/-- An attribute that matters to serialisation. -/
inductive Marker where
  | nonSerialized
  | serializeField
deriving DecidableEq, Repr

namespace Marker

/-- The markers in the order of the registry. -/
def all : List Marker := [nonSerialized, serializeField]

/-- The name that a marker is told by. -/
def canonical : Marker → Text
  | nonSerialized => "NonSerialized".toList
  | serializeField => "SerializeField".toList

/-- The other spellings of a marker. -/
def aliases : Marker → List Text
  | nonSerialized =>
    ["NonSerializedAttribute".toList, "System.NonSerialized".toList,
      "System.NonSerializedAttribute".toList]
  | serializeField =>
    ["SerializeFieldAttribute".toList, "UnityEngine.SerializeField".toList,
      "UnityEngine.SerializeFieldAttribute".toList]

/-- What a marker asks for. -/
def description : Marker → Text
  | nonSerialized => "Never serialize this field.".toList
  | serializeField => "Serialize this field even though it is not public.".toList

/-- All spellings of a marker. -/
def spellings (m : Marker) : List Text := m.canonical :: m.aliases

/-- The marker that a name spells. -/
def ofText? (name : Text) : Option Marker := all.find? fun m => name ∈ m.spellings

/-- No spelling belongs to both markers. -/
theorem spellings_disjoint : ∀ name ∈ spellings serializeField, name ∉ spellings nonSerialized := by
  decide

/-- **A name spells a marker if it is among its spellings**, and then no other one. -/
theorem ofText?_eq_some_iff {name : Text} {m : Marker} : ofText? name = some m ↔ name ∈ m.spellings := by
  unfold ofText? all
  constructor
  · intro h
    simpa using List.find?_some h
  · intro h
    cases m with
    | nonSerialized => rw [List.find?_cons, decide_eq_true h]
    | serializeField =>
      rw [List.find?_cons, decide_eq_false (spellings_disjoint name h), List.find?_cons,
        decide_eq_true h]

end Marker

end EditorScaffold
