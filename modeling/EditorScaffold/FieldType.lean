import EditorScaffold.Text.Basic

/-! # Field types

The declared type of a field, reduced to the shapes that matter to serialisation: named leaves of four
kinds, the text type, arrays and lists around an element, and other generic types. A type is serialisable
if what is inside its arrays and lists is a leaf of the right kind or the text type. -/

namespace EditorScaffold

/-- The kinds of named types without parameters. -/
inductive LeafKind where
  | object
  | enumeration
  | value
  | plainClass
deriving DecidableEq, Repr

/-- The containers that serialisation sees through. -/
inductive Container where
  | array
  | list
deriving DecidableEq, Repr

/-- The declared type of a field. -/
inductive FieldType where
  | leaf (kind : LeafKind) (name : Text)
  | text
  | container (c : Container) (element : FieldType)
  | generic (name : Text) (args : List FieldType)

namespace FieldType

/-! ### Text -/

mutual

/-- A type as source text. -/
def display : FieldType → Text
  | leaf _ name => name
  | text => "string".toList
  | container .array e => display e ++ "[]".toList
  | container .list e => "List<".toList ++ display e ++ ['>']
  | generic name args => name ++ '<' :: displayArgs args ++ ['>']

/-- The arguments of a generic type, with commas between them. -/
def displayArgs : List FieldType → Text
  | [] => []
  | [t] => display t
  | t :: u :: ts => display t ++ ", ".toList ++ displayArgs (u :: ts)

end

/-! ### Containers -/

/-- The type of the elements of a container. -/
def element? : FieldType → Option FieldType
  | container _ e => some e
  | _ => none

/-- Whether the type is a container. -/
def isContainer (t : FieldType) : Bool := t.element?.isSome

/-! ### Serialisation -/

/-- Whether a value of the type can be serialised. -/
def serializable : FieldType → Bool
  | leaf .plainClass _ => false
  | leaf _ _ => true
  | text => true
  | container _ e => serializable e
  | generic _ _ => false

end FieldType

end EditorScaffold
