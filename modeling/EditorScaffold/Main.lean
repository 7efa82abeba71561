import EditorScaffold.CommandLine.Run

/-! # The program

The files of the machine as a store, and the program that runs on it. -/

namespace EditorScaffold

/-- The cause of a failure of the machine, with its own wording where it is none of the known ones. The
number 21 tells a directory in the place of a file from a file in the place of a directory, and 36 a name
that is too long from other bad arguments. -/
def FileError.ofMachine : IO.Error → FileError
  | .noFileOrDirectory .. => .notFound
  | .alreadyExists .. => .alreadyExists
  | .inappropriateType _ number _ => if number = 21 then .isDirectory else .notDirectory
  | e@(.invalidArgument _ number _) => if number = 36 then .nameTooLong else .other (toString e).toList
  | e => .other (toString e).toList

/-- An action of the machine on a path, its failure as a cause. -/
def attempt {α : Type} (path : Text) (action : String → IO α) : ExceptT FileError IO α := ExceptT.mk do
  if '\x00' ∈ path then return .error .nulInPath
  try return .ok (← action (String.ofList path))
  catch e => return .error (FileError.ofMachine e)

/-- There is something at a path if it can be opened, or if only the permission to open it is missing. -/
instance : FileStore IO where
  present path := do
    match ← (IO.FS.Handle.mk (String.ofList path) .read).toBaseIO with
    | .ok _ => return true
    | .error (.permissionDenied ..) => return true
    | .error _ => return false
  readText path := do
    match String.fromUTF8? (← attempt path (IO.FS.readBinFile ·)) with
    | some t => return t.toList
    | none => throw .notText
  writeText path text := do
    match Path.parent? path with
    | none | some [] => pure ()
    | some parent => attempt parent (IO.FS.createDirAll ·)
    attempt path (IO.FS.writeFile · (String.ofList text))

end EditorScaffold

/-- Runs the program on the files of the machine. -/
def main (args : List String) : IO UInt32 := do
  let report ← EditorScaffold.CommandLine.run (m := IO) (args.map String.toList)
  (← IO.getStdout).putStr (String.ofList report.out)
  (← IO.getStderr).putStr (String.ofList report.err)
  return report.exitCode.toUInt32
