import EditorScaffold.Field
import EditorScaffold.Layout
import EditorScaffold.TypeName

/-! # Editors

The source text of an inspector editor: a class for a type, in the namespace of the type, with a handle for
each selected field and for the script itself. The handles are declared, bound when the editor is enabled,
and drawn; without selected fields the default inspector is drawn. -/

namespace EditorScaffold

/-- What an editor is made from: the type, the selected fields, and whether it holds a typed reference to
the inspected object. -/
structure EditorRequest where
  type : TypeName
  fields : List Profile
  target : Bool

/-- Why no editor can be made. -/
inductive EditorError where
  | unnamedType
deriving DecidableEq, Repr

/-- The wording of an error. -/
def EditorError.message : EditorError → Text
  | unnamedType => "generation request without a type name".toList

namespace Editor

/-! ### Names -/

/-- The namespace of the editor framework. -/
def framework : Text := "UnityEditor".toList

/-- What an import of the editor framework starts with. -/
def importStart : Text := "using ".toList ++ framework

/-- The statement that imports the editor framework. -/
def importStatement : Text := importStart ++ [';']

/-- The handle of the script itself. -/
def scriptHandle : Text := "_script".toList

/-- The property of the script itself. -/
def scriptProperty : Text := "m_Script".toList

end Editor

namespace EditorRequest

/-! ### Statements -/

/-- The declaration of a handle. -/
def handleLine (handle : Text) : Text := "private SerializedProperty ".toList ++ handle ++ [';']

/-- The statement that binds a handle to a property. -/
def bindLine (handle property : Text) : Text :=
  handle ++ " = serializedObject.FindProperty(\"".toList ++ property ++ "\");".toList

/-- The statement that draws a handle, with the elements of a collection. -/
def drawLine (handle : Text) (children : Bool) : Text :=
  "EditorGUILayout.PropertyField(".toList ++ handle ++
    if children then ", true);".toList else ");".toList

/-- The statement that draws the default inspector. -/
def drawDefaultLine : Text := "base.OnInspectorGUI();".toList

variable (r : EditorRequest)

/-- The declaration of the typed reference to the inspected object. -/
def targetLine : Text := "private ".toList ++ r.type.name ++ ' ' :: r.type.targetHandle ++ [';']

/-- The statement that binds the typed reference. -/
def bindTargetLine : Text := r.type.targetHandle ++ " = target as ".toList ++ r.type.name ++ [';']

/-! ### Parts of the class -/

/-- The declarations of the fields. -/
def declarations : List Layout :=
  (if r.target then [.line r.targetLine, .blank] else []) ++
    r.fields.map (fun f => .line (handleLine f.name)) ++ [.line (handleLine Editor.scriptHandle)]

/-- The method that binds the handles. -/
def onEnable : Layout :=
  .block "private void OnEnable()".toList <|
    .line (bindLine Editor.scriptHandle Editor.scriptProperty) ::
      r.fields.map (fun f => .line (bindLine f.name f.name)) ++
        if r.target then [.line r.bindTargetLine] else []

/-- The method that draws the handles. -/
def onInspectorGUI : Layout :=
  .block "public override void OnInspectorGUI()".toList <|
    .block "using (new EditorGUI.DisabledScope(true))".toList
        [.line (drawLine Editor.scriptHandle false)] ::
      if r.fields.isEmpty then [.line drawDefaultLine]
      else r.fields.map fun f => .line (drawLine f.name f.isCollection)

/-- The class with its attribute. -/
def classLayout : List Layout :=
  [.line ("[CustomEditor(typeof(".toList ++ r.type.name ++ "))]".toList),
    .block ("public class ".toList ++ r.type.editorClass ++ " : ".toList ++ TypeName.editorWord)
      (r.declarations ++ [.blank, r.onEnable, .blank, r.onInspectorGUI])]

/-- The whole source text. -/
def layout : List Layout :=
  [.line Editor.importStatement, .blank] ++
    if r.type.hasSpace then [.block ("namespace ".toList ++ r.type.space) r.classLayout]
    else r.classLayout

/-- The editor as text, for a type that has a name. -/
def text (style : Style) : Except EditorError Text :=
  if r.type.name.isEmpty then .error .unnamedType else .ok (Layout.text style r.layout)

end EditorRequest

end EditorScaffold
