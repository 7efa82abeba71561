import EditorScaffold.Catalogue.Basic
import EditorScaffold.Path
import EditorScaffold.Store.Basic

/-! # Sessions

A session holds what a user has chosen: a script, the type it stands for, the fields that an editor can
bind with a check each, and whether the editor holds a typed reference. Choosing a script checks all its
fields and forgets what was chosen before, but not the reference. -/

namespace EditorScaffold

/-- What a user has chosen. -/
structure Session where
  script : Option Text := none
  type : Option TypeName := none
  fields : List Profile := []
  checks : List Bool := []
  target : Bool := false

/-- Why no editor was written. -/
inductive CreateError where
  | editor (e : EditorError)
  | file (e : FileError)
deriving DecidableEq, Repr

namespace Session

/-! ### Choosing -/

/-- The session after a script is chosen. -/
def setScript (s : Session) (source : TypeSource) (script : Text) : Session :=
  let type := source.resolve script
  let fields := match type with
    | some t => source.profiles t
    | none => []
  { s with script := some script, type, fields, checks := List.replicate fields.length true }

/-- The session without a script. -/
def clear (s : Session) : Session := { s with script := none, type := none, fields := [], checks := [] }

/-- Whether the field at an index is checked. -/
def isChecked (s : Session) (i : Nat) : Bool := s.checks[i]?.getD false

/-- The session with the field at an index checked or not. -/
def setChecked (s : Session) (i : Nat) (checked : Bool) : Session :=
  { s with checks := s.checks.set i checked }

/-- The session with the check of the field at an index turned over. -/
def toggle (s : Session) (i : Nat) : Session := { s with checks := s.checks.modify i (!·) }

/-- Whether there is a field of a name. -/
def hasField (s : Session) (name : Text) : Bool := s.fields.any (·.name = name)

/-- The session with all fields of a name checked or not. -/
def setCheckedByName (s : Session) (name : Text) (checked : Bool) : Session :=
  { s with checks := s.fields.zipWith (fun f c => if f.name = name then checked else c) s.checks }

/-- The session with all fields checked or not. -/
def selectAll (s : Session) (checked : Bool) : Session :=
  { s with checks := s.checks.map fun _ => checked }

/-- The session with or without a typed reference. -/
def setTarget (s : Session) (target : Bool) : Session := { s with target }

/-! ### What follows -/

/-- The fields that are checked. -/
def selected (s : Session) : List Profile := ((s.fields.zip s.checks).filter (·.2)).map (·.1)

/-- What an editor is made from, if a type is chosen. -/
def request? (s : Session) : Option EditorRequest :=
  s.type.map fun type => { type, fields := s.selected, target := s.target }

/-- Where the editor goes if nothing else is said: beside the script. -/
def defaultPath? (s : Session) (source : TypeSource) : Option Text :=
  s.type.map fun t =>
    Path.join (((source.scriptPath t).bind Path.parent?).getD []) t.editorFile

variable {m : Type → Type} [Monad m] [FileStore m]

/-- Writes the editor to a path. Nothing happens without a path, with an empty one, or without a type. -/
def create (s : Session) (style : Style) (path : Option Text) :
    ExceptT CreateError m (Option WriteOutcome) :=
  match path.filter (!·.isEmpty), s.request? with
  | some path, some request => do
    match request.text style with
    | .error e => throw (.editor e)
    | .ok text =>
      let outcome ← (writeEditor path text style.guardSymbol).adapt CreateError.file
      return some outcome
  | _, _ => return none

end Session

end EditorScaffold
