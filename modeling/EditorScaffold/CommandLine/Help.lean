import EditorScaffold.CommandLine.Option
import EditorScaffold.Text.Lines

/-! # Help texts

The texts that tell how the program is used. -/

namespace EditorScaffold.CommandLine

/-- What help is asked about. -/
inductive Topic where
  | level (l : Level)
  | help
deriving DecidableEq, Repr

namespace Topic

/-- The name of the program. -/
def program : Text := "inspectorgen".toList

/-- The version of the program. -/
def version : Text := "0.1.0".toList

/-- The line that tells the version. -/
def versionLine : Text := program ++ ' ' :: version ++ ['\n']

/-- The help about the whole program. -/
def overview : List String :=
  ["Generate custom inspector editors from serializable field metadata",
    "",
    "Usage: inspectorgen [OPTIONS] <COMMAND>",
    "",
    "Commands:",
    "  types     List the types the manifest can resolve",
    "  fields    Show the fields an editor can bind",
    "  generate  Generate an editor and write it, appending if the file exists",
    "  help      Print this message or the help of the given subcommand(s)",
    "",
    "Options:",
    "  -s, --schema <FILE>  JSON type manifest describing the project's types [default: types.json]",
    "  -h, --help           Print help",
    "  -V, --version        Print version"]

/-- The help about listing types. -/
def types : List String :=
  ["List the types the manifest can resolve",
    "",
    "Usage: inspectorgen types [OPTIONS]",
    "",
    "Options:",
    "  -s, --schema <FILE>  JSON type manifest describing the project's types [default: types.json]",
    "  -h, --help           Print help"]

/-- The help about showing fields. -/
def fields : List String :=
  ["Show the fields an editor can bind",
    "",
    "Usage: inspectorgen fields [OPTIONS] <SCRIPT>",
    "",
    "Arguments:",
    "  <SCRIPT>  Script path, qualified type name or simple type name",
    "",
    "Options:",
    "  -s, --schema <FILE>  JSON type manifest describing the project's types [default: types.json]",
    "  -h, --help           Print help"]

/-- The help about generating an editor. -/
def generate : List String :=
  ["Generate an editor and write it, appending if the file exists",
    "",
    "Usage: inspectorgen generate [OPTIONS] <SCRIPT>",
    "",
    "Arguments:",
    "  <SCRIPT>  Script path, qualified type name or simple type name",
    "",
    "Options:",
    "  -s, --schema <FILE>      JSON type manifest describing the project's types [default: types.json]",
    "      --skip <FIELD>       Leave a field out (repeatable)",
    "      --only <FIELD>       Bind only these fields (repeatable)",
    "      --target             Declare a typed reference to the inspected object",
    "  -o, --output <PATH>      Output path (default: next to the script, named <Type>Editor.cs)",
    "      --stdout             Print the editor instead of writing it",
    "      --indent-spaces <N>  Indent with this many spaces instead of tabs",
    "  -h, --help               Print help"]

/-- The help about help. -/
def aboutHelp : List String :=
  ["Print this message or the help of the given subcommand(s)",
    "",
    "Usage: inspectorgen help [COMMAND]...",
    "",
    "Arguments:",
    "  [COMMAND]...  Print help for the subcommand(s)"]

/-- The lines of the help about a topic. -/
def lines : Topic → List String
  | level .top => overview
  | level (.verb .types) => types
  | level (.verb .fields) => fields
  | level (.verb .generate) => generate
  | help => aboutHelp

/-- The help about a topic. -/
def text (t : Topic) : Text := t.lines.flatMap fun l => l.toList ++ ['\n']

/-- The topic that a word leads to from another one. -/
def sub? : Topic → Text → Option Topic
  | level .top, word =>
    match Verb.ofText? word with
    | some v => some (level (.verb v))
    | none => if word = helpWord then some help else none
  | _, _ => none

end Topic

end EditorScaffold.CommandLine
