import EditorScaffold.Path
import EditorScaffold.Store.Basic
import EditorScaffold.Store.Table

/-! # Files in memory

A store that maps paths to texts. A file is found under every spelling of its path, and stays under the one
that it was made with. Some paths exist but cannot be read, and the whole store may refuse to be written. -/

namespace EditorScaffold

/-- Files in memory. -/
structure Memory where
  files : List (Text × Text)
  unreadable : List Text := []
  readOnly : Bool := false

namespace Memory

/-- The files under what their paths are told by. -/
def table (s : Memory) : Table (Text × List Text) Text := s.files.map fun f => (Path.key f.1, f.2)

/-- The text of the file under a path, if there is one. -/
def file? (s : Memory) (path : Text) : Option Text := s.table.get? (Path.key path)

/-- Whether a path exists that cannot be read. -/
def isUnreadable (s : Memory) (path : Text) : Bool := s.unreadable.any fun p => Path.Same p path

/-- How the path of a file is spelled; a path without a file is spelled as it is. -/
def spelling (s : Memory) (path : Text) : Text :=
  ((s.files.find? fun f => Path.Same f.1 path).map (·.1)).getD path

/-- The memory with a text under a path. -/
def put (s : Memory) (path text : Text) : Memory :=
  { s with files := (s.spelling path, text) :: s.files.filter fun f => ¬ Path.Same f.1 path }

/-- Whether there is something under a path. -/
def present (s : Memory) (path : Text) : Bool := (s.file? path).isSome || s.isUnreadable path

/-- The text of a file. -/
def read (s : Memory) (path : Text) : Except FileError Text :=
  if s.isUnreadable path then .error .unreadable
  else match s.file? path with
    | some t => .ok t
    | none => .error .missing

/-- The store after a file is written. -/
def write (s : Memory) (path text : Text) : Except FileError Memory :=
  if s.readOnly then .error .readOnly else .ok (s.put path text)

end Memory

instance : FileStore (StateM Memory) where
  present path := do return (← get).present path
  readText path := do ExceptT.mk (pure ((← getThe Memory).read path))
  writeText path text := do
    match (← getThe Memory).write path text with
    | .ok s => set s
    | .error e => throw e

end EditorScaffold
