import EditorScaffold.Text.LowerCase

/-! # Type names

A script type has a name and lives in a namespace, which may be the global one. From the name come the
names that an editor for the type uses: its class, its file, and the field that holds the inspected
object. -/

namespace EditorScaffold

/-- The name of a script type and its namespace, empty for the global one. -/
structure TypeName where
  name : Text
  space : Text := []
deriving DecidableEq, Repr

namespace TypeName

/-- Whether the type lives in a namespace. -/
def hasSpace (t : TypeName) : Bool := !t.space.isEmpty

/-- The name with the namespace before it. -/
def qualified (t : TypeName) : Text := if t.hasSpace then t.space ++ '.' :: t.name else t.name

/-- The order by name and then namespace. -/
def compare (s t : TypeName) : Ordering := (Text.compare s.name t.name).then (Text.compare s.space t.space)

/-- The names in ascending order. -/
def sort (ts : List TypeName) : List TypeName := ts.mergeSort fun s t => compare s t != .gt

/-! ### Names in an editor -/

/-- What the name of an editor class ends in, and the name of its base class. -/
def editorWord : Text := "Editor".toList

/-- The extension of a source file. -/
def sourceExtension : Text := "cs".toList

/-- The name of the editor class. -/
def editorClass (t : TypeName) : Text := t.name ++ editorWord

/-- The name of the field that holds the inspected object. -/
def targetHandle (t : TypeName) : Text := '_' :: t.name.lowerFirst

/-- The name of the file that holds the editor. -/
def editorFile (t : TypeName) : Text := t.editorClass ++ '.' :: sourceExtension

end TypeName

end EditorScaffold
