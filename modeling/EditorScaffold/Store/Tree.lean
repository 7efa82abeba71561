import EditorScaffold.Path
import EditorScaffold.Store.Basic
import EditorScaffold.Store.Table

/-! # Directory trees

A tree of directories and files without links. A location is the list of names from the root; a path is
walked part by part from the working directory or the root, and each part but the last must be a directory
that exists, also where the next part goes up again. A path has no NUL and at most `maxPath` bytes, and a
name of at most `maxName` bytes can be looked up. To write a file, the missing directories of its path are
made first. -/

namespace EditorScaffold

/-- What a file holds: a text, or bytes that are no text. -/
inductive Contents where
  | text (t : Text)
  | binary (bytes : List UInt8)
deriving DecidableEq

/-- What is at a location. -/
inductive Node where
  | directory
  | file (c : Contents)
deriving DecidableEq

/-- The names from the root. -/
abbrev Location := List Text

/-- A tree of directories and files, with the working directory. -/
structure Tree where
  nodes : Table Location Node
  cwd : Location

namespace Tree

/-! ### Limits -/

/-- The greatest number of bytes of a name. -/
def maxName : Nat := 255

/-- The greatest number of bytes of a path. -/
def maxPath : Nat := 4095

/-- A path that can be walked: it is not empty, has no NUL and is not too long. -/
def checkPath (path : Text) : Except FileError Unit :=
  if '\x00' ∈ path then .error .nulInPath
  else if path = [] then .error .notFound
  else if maxPath < Text.byteSize path then .error .nameTooLong
  else .ok ()

theorem checkPath_eq_ok_iff {path : Text} :
    checkPath path = .ok () ↔ '\x00' ∉ path ∧ path ≠ [] ∧ Text.byteSize path ≤ maxPath := by
  unfold checkPath
  split
  · next hn => simp [hn]
  · next hn =>
    split
    · next he => simp [he]
    · next he =>
      split
      · next h => simp [Nat.not_le.2 h]
      · next h => simp [hn, he, Nat.not_lt.1 h]

/-! ### Locations -/

/-- What is at a location; the root is always a directory. -/
def node? (s : Tree) (at_ : Location) : Option Node :=
  if at_ = [] then some .directory else s.nodes.get? at_

/-- The tree with something at a location. -/
def put (s : Tree) (at_ : Location) (n : Node) : Tree := { s with nodes := s.nodes.put at_ n }

/-- What is at a location, its last name looked up in the directory around it. -/
def find (s : Tree) (at_ : Location) : Except FileError (Option Node) :=
  if maxName < Text.byteSize (at_.getLastD []) then .error .nameTooLong else .ok (s.node? at_)

/-- A location that must be a directory. -/
def enter (s : Tree) (at_ : Location) : Except FileError Location := do
  match ← s.find at_ with
  | some .directory => return at_
  | some (.file _) => throw .notDirectory
  | none => throw .notFound

/-- The location of a part below a directory. -/
def step (s : Tree) (at_ : Location) (piece : Text) : Except FileError Location := do
  let at_ ← s.enter at_
  if Path.isVoid piece then return at_
  else if piece = "..".toList then return at_.dropLast
  else return at_ ++ [piece]

/-- The location of a list of parts. -/
def walk (s : Tree) (at_ : Location) (pieces : List Text) : Except FileError Location :=
  pieces.foldlM s.step at_

/-- Where a path starts. -/
def origin (s : Tree) (path : Text) : Location := if Path.isAbsolute path then [] else s.cwd

/-- The location of a path. -/
def locate (s : Tree) (path : Text) : Except FileError Location := do
  checkPath path
  s.walk (s.origin path) (Path.pieces path)

/-- What is at a path. -/
def lookup (s : Tree) (path : Text) : Except FileError Node := do
  match ← s.find (← s.locate path) with
  | some n => return n
  | none => throw .notFound

/-! ### Making things -/

/-- Where the last part of a path is to be made: the directory around it with the name, or nothing where
the last part is no name. A slash at the end is looked over. -/
def slot (s : Tree) (path : Text) : Except FileError (Option Location) := do
  checkPath path
  let ps := Path.pieces path
  let ps := (ps.reverse.dropWhile (· = [])).reverse
  match ps.getLast? with
  | none => return none
  | some name =>
    let at_ ← s.enter (← s.walk (s.origin path) ps.dropLast)
    if name = ".".toList ∨ name = "..".toList then return none else return some (at_ ++ [name])

/-- The tree with a new directory. -/
def makeDirectory (s : Tree) (path : Text) : Except FileError Tree := do
  match ← s.slot path with
  | none => throw .alreadyExists
  | some at_ =>
    match ← s.find at_ with
    | some _ => throw .alreadyExists
    | none => return s.put at_ .directory

/-- Whether there is a directory at a path. -/
def isDirectory (s : Tree) (path : Text) : Bool :=
  match s.lookup path with
  | .ok .directory => true
  | _ => false

/-- A tree after an attempt, and the error if it failed. -/
abbrev Attempt := Tree × Option FileError

/-- Makes a directory; one that is there already will do. -/
def ensureDirectory (s : Tree) (path : Text) : Attempt :=
  match s.makeDirectory path with
  | .ok s => (s, none)
  | .error e => (s, if s.isDirectory path then none else some e)

/-- Makes a directory and the missing ones around it, at most `fuel` of them. What was made before a
failure stays. -/
def makeDirectories : Nat → Tree → Text → Attempt
  | 0, s, _ => (s, none)
  | fuel + 1, s, path =>
    if path = [] then (s, none)
    else match s.makeDirectory path with
      | .ok s => (s, none)
      | .error .notFound =>
        match Path.parent? path with
        | none => (s, some .notFound)
        | some parent =>
          match makeDirectories fuel s parent with
          | (s, none) => s.ensureDirectory path
          | failed => failed
      | .error e => (s, if s.isDirectory path then none else some e)

/-- Makes the directories around a path. -/
def makeParents (s : Tree) (path : Text) : Attempt :=
  match Path.parent? path with
  | none => (s, none)
  | some parent => makeDirectories (path.length + 1) s parent

/-- The tree with a whole file; a file that is there is replaced. -/
def putFile (s : Tree) (path : Text) (c : Contents) : Except FileError Tree := do
  match ← s.slot path with
  | none => throw .isDirectory
  | some at_ =>
    if path.getLast? = some '/' then throw .isDirectory
    else match ← s.find at_ with
      | some .directory => throw .isDirectory
      | _ => return s.put at_ (.file c)

/-! ### Access to whole files -/

/-- Whether there is something at a path. -/
def present (s : Tree) (path : Text) : Bool := (s.lookup path).isOk

/-- The text of a file. -/
def read (s : Tree) (path : Text) : Except FileError Text := do
  match ← s.lookup path with
  | .directory => throw .isDirectory
  | .file (.binary _) => throw .notText
  | .file (.text t) => return t

/-- Writes a whole file, after making the directories around it. -/
def write (s : Tree) (path : Text) (c : Contents) : Attempt :=
  match s.makeParents path with
  | (s, some e) => (s, some e)
  | (s, none) =>
    match s.putFile path c with
    | .ok s => (s, none)
    | .error e => (s, some e)

end Tree

instance : FileStore (StateM Tree) where
  present path := do return (← get).present path
  readText path := do ExceptT.mk (pure ((← getThe Tree).read path))
  writeText path text := do
    let (s, failure) := (← getThe Tree).write path (.text text)
    set s
    match failure with
    | none => pure ()
    | some e => throw e

end EditorScaffold
