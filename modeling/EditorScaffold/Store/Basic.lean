import EditorScaffold.Merge

/-! # Stores of files

A store gives access to whole files by their paths. An editor is written to a store as a new file, or
merged into the file that is there. -/

namespace EditorScaffold

/-- Why a file cannot be read or written. -/
inductive FileError where
  | missing
  | unreadable
  | readOnly
  | notFound
  | alreadyExists
  | isDirectory
  | notDirectory
  | notText
  | nameTooLong
  | nulInPath
  | other (message : Text)
deriving DecidableEq, Repr

/-- The wording of an error. -/
def FileError.message : FileError → Text
  | missing => "missing".toList
  | unreadable => "unreadable".toList
  | readOnly => "read-only".toList
  | notFound => "No such file or directory (os error 2)".toList
  | alreadyExists => "File exists (os error 17)".toList
  | isDirectory => "Is a directory (os error 21)".toList
  | notDirectory => "Not a directory (os error 20)".toList
  | notText => "stream did not contain valid UTF-8".toList
  | nameTooLong => "File name too long (os error 36)".toList
  | nulInPath => "file name contained an unexpected NUL byte".toList
  | other message => message

/-- Access to whole files, with effects in `m`. -/
class FileStore (m : Type → Type) where
  /-- Whether there is something at a path. -/
  present : Text → m Bool
  /-- The text of the file at a path. -/
  readText : Text → ExceptT FileError m Text
  /-- Makes a text the whole file at a path. -/
  writeText : Text → Text → ExceptT FileError m Unit

/-- What writing an editor did. -/
inductive WriteOutcome where
  | created
  | appended (inserted : Bool)
deriving DecidableEq, Repr

variable {m : Type → Type} [Monad m] [FileStore m]

/-- Writes a generated editor to a path: as a new file, or after the text that is there. -/
def writeEditor (path generated guardSymbol : Text) : ExceptT FileError m WriteOutcome := do
  if ← FileStore.present (m := m) path then
    let existing ← FileStore.readText path
    let merged := Merge.merge existing generated guardSymbol
    FileStore.writeText path merged.text
    return .appended merged.inserted
  else
    FileStore.writeText path generated
    return .created

end EditorScaffold
