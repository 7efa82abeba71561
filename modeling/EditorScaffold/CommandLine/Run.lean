import EditorScaffold.Catalogue.Manifest
import EditorScaffold.CommandLine.Parser
import EditorScaffold.Session

/-! # Carrying out a command

A command works on a store: it loads the manifest and then lists its types, shows the fields of one, or
makes an editor of one, which it prints or writes. What it says goes to the output, and why it failed to
the error output. -/

namespace EditorScaffold.CommandLine

/-- Why a command failed. -/
inductive Failure where
  | manifest (e : Manifest.Error)
  | unresolved (script : Text)
  | unknownField (field : Text) (type : Text)
  | write (path : Text) (e : FileError)
  | editor (e : EditorError)
  | tooLong
deriving DecidableEq

namespace Failure

/-- The wording of a failure; that no editor can be made or held at all is not told here. -/
def message : Failure → Text
  | manifest e => e.message
  | unresolved script => '\'' :: script ++ "' does not resolve to a compiled type".toList
  | unknownField field type => '\'' :: field ++ "' is not a serializable field of ".toList ++ type
  | write path e => "Error writing '".toList ++ path ++ "': ".toList ++ e.message
  | editor _ => []
  | tooLong => []

/-- The exit code. -/
def exitCode : Failure → Nat
  | editor _ => 101
  | tooLong => 101
  | _ => 1

end Failure

/-- What running the program gave. -/
structure Report where
  exitCode : Nat
  out : Text := []
  err : Text := []
deriving DecidableEq, Repr

/-! ### Lines of output -/

/-- The line that lists a type. -/
def typeLine (e : Entry) : Text :=
  e.type.qualified ++ "  (".toList ++ e.script.getD ['-'] ++
    (if e.compiled then ")\n".toList else ", does not compile)\n".toList)

/-- The line that shows a field. -/
def fieldLine (p : Profile) : Text :=
  "  [x] ".toList ++ p.name ++ ": ".toList ++ p.type.display ++
    if p.isCollection then " (collection)\n".toList else ['\n']

/-- The line that is shown where there are no fields. -/
def noFieldsLine : Text :=
  "  (no serializable fields; the editor will draw the default inspector)\n".toList

/-- The lines that show the fields of a type. -/
def fieldLines (t : TypeName) (ps : List Profile) : Text :=
  t.qualified ++ '\n' :: (if ps.isEmpty then noFieldsLine else []) ++ ps.flatMap fieldLine

/-- The line that tells what was written. -/
def outcomeLine (path : Text) : WriteOutcome → Text
  | .created => "Created ".toList ++ path ++ ['\n']
  | .appended true => "Appended to ".toList ++ path ++ " (inserted editor import)\n".toList
  | .appended false => "Appended to ".toList ++ path ++ ['\n']

/-! ### Choosing fields -/

/-- The session with the fields of the names checked or not. -/
def checkFields (type : Text) (checked : Bool) (s : Session) : List Text → Except Failure Session
  | [] => .ok s
  | name :: names =>
    if s.hasField name then checkFields type checked (s.setCheckedByName name checked) names
    else .error (.unknownField name type)

/-- The session with only some fields and without others. -/
def chooseFields (type : Text) (only skip : List Text) (s : Session) : Except Failure Session := do
  let s ← if only.isEmpty then pure s else checkFields type true (s.selectAll false) only
  checkFields type false s skip

/-- The session that the options of a command ask for. -/
def chosen (c : Catalogue) (o : GenerateOptions) : Except Failure Session :=
  let s := ({} : Session).setScript c.source o.script
  match s.type with
  | none => .error (.unresolved o.script)
  | some t => (·.setTarget o.target) <$> chooseFields t.name o.only o.skip s

namespace GenerateOptions

/-- The style that the options of a command ask for. -/
def style (o : GenerateOptions) : Except Failure Style :=
  match o.indentSpaces with
  | none => .ok {}
  | some width =>
    match ({} : Style).withSpaces? width with
    | some style => .ok style
    | none => .error .tooLong

/-- An editor is asked for: it is printed, or it goes to a path that is not empty. -/
def Asks (o : GenerateOptions) : Prop := o.stdout = true ∨ o.output ≠ some []

instance (o : GenerateOptions) : Decidable o.Asks := inferInstanceAs (Decidable (_ ∨ _))

/-- Fails if an editor is asked for that is longer than a text can be. -/
def checkLength (o : GenerateOptions) (style : Style) (s : Session) : Except Failure Unit :=
  match s.request? with
  | some r =>
    if o.Asks ∧ Text.maxByteSize < (Layout.text style r.layout).byteSize then .error .tooLong else .ok ()
  | none => .ok ()

end GenerateOptions

/-! ### Commands -/

variable {m : Type → Type} [Monad m] [FileStore m]

/-- Makes an editor and prints or writes it; the result is what is said. -/
def generate (c : Catalogue) (o : GenerateOptions) : ExceptT Failure m Text := do
  let s ← ExceptT.mk (pure (chosen c o))
  let style ← ExceptT.mk (pure o.style)
  ExceptT.mk (pure (o.checkLength style s))
  if o.stdout then
    match s.request? with
    | none => throw (.unresolved o.script)
    | some r =>
      match r.text style with
      | .error e => throw (.editor e)
      | .ok t => return t
  else
    match o.output.or (s.defaultPath? c.source) with
    | none => throw (.unresolved o.script)
    | some path =>
      let outcome ← (s.create (m := m) style (some path)).adapt fun
        | .editor e => .editor e
        | .file e => .write path e
      match outcome with
      | some outcome => return outcomeLine path outcome
      | none => return []

/-- Carries out a command; the result is what is said. -/
def perform (i : Invocation) : ExceptT Failure m Text := do
  let c ← (Manifest.load (m := m) i.schema).adapt Failure.manifest
  match i.command with
  | .types => return c.entries.flatMap typeLine
  | .fields script =>
    match c.resolve script with
    | none => throw (.unresolved script)
    | some t => return fieldLines t (c.source.profiles t)
  | .generate o => generate c o

/-- What carrying out a command gives. -/
def report (i : Invocation) : m Report := do
  match ← (perform (m := m) i).run with
  | .ok out => return { exitCode := 0, out }
  | .error e =>
    return { exitCode := e.exitCode, err := if e.message.isEmpty then [] else e.message ++ ['\n'] }

/-- What a command line that is not carried out gives. -/
def Refusal.report (r : Refusal) : Report :=
  if r.wasAsked then { exitCode := r.exitCode, out := r.printed }
  else { exitCode := r.exitCode, err := r.printed ++ ['\n'] }

/-- Runs the program with arguments. -/
def run (args : List Text) : m Report :=
  match parse args with
  | .ok i => report i
  | .error r => return r.report

end EditorScaffold.CommandLine
