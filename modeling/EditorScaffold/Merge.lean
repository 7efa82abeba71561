import EditorScaffold.Editor
import EditorScaffold.Text.Lines

/-! # Merging into existing text

A generated editor is appended to a text that is there already, after a newline. If no line of that text
imports the editor framework, an import between guards is put before the first line that declares a
namespace or a visible type. Nothing of the existing text is read beyond the starts of its lines. -/

namespace EditorScaffold.Merge

/-! ### Lines that matter -/

/-- What lines that declare something start with. -/
def declarationStarts : List Text := ["namespace".toList, "public".toList, "internal".toList]

/-- Whether a line imports the editor framework. -/
def isImport (l : Text) : Bool := Editor.importStart.isPrefixOf l

/-- Whether a line declares something. -/
def isDeclaration (l : Text) : Bool := declarationStarts.any (·.isPrefixOf l)

/-- Whether one of the lines imports the editor framework. -/
def hasImport (ls : List Text) : Bool := ls.any isImport

/-! ### The import -/

/-- The import between guards. -/
def guardedImport (guardSymbol : Text) : Text :=
  "#if ".toList ++ guardSymbol ++ '\n' :: Editor.importStatement ++ "\n#endif\n".toList

/-- The lines with a block put before the first declaration, if there is one. -/
def insertBlock? (block : Text) : List Text → Option (List Text)
  | [] => none
  | l :: ls => if isDeclaration l then some ((block ++ l) :: ls) else (insertBlock? block ls).map (l :: ·)

/-- The lines with the import in them, and whether it had to be inserted. -/
def insertImport (guardSymbol : Text) (ls : List Text) : List Text × Bool :=
  if hasImport ls then (ls, false)
  else match insertBlock? (guardedImport guardSymbol) ls with
    | some ls => (ls, true)
    | none => (ls, false)

theorem length_insertBlock? {block : Text} {ls ms : List Text} (h : insertBlock? block ls = some ms) :
    ms.length = ls.length := by
  induction ls generalizing ms with
  | nil => simp [insertBlock?] at h
  | cons l ls ih =>
    rw [insertBlock?] at h
    split at h
    · simp at h; simp [← h]
    · obtain ⟨ns, hn, rfl⟩ := Option.map_eq_some_iff.1 h
      simp [ih hn]

/-! ### The merge -/

/-- A merged text, and whether the import was inserted. -/
structure Merged where
  text : Text
  inserted : Bool
deriving DecidableEq, Repr

/-- The existing text with the generated one after it. -/
def merge (existing generated guardSymbol : Text) : Merged :=
  let (ls, inserted) := insertImport guardSymbol existing.lines
  ⟨Text.unlines ls ++ '\n' :: generated, inserted⟩

end EditorScaffold.Merge
