import EditorScaffold.Text.Basic

/-! # Options of the command line

The options, the verbs that take them, and how each is shown to people. An option takes a value or is a
flag; some may be given again and again. -/

namespace EditorScaffold.CommandLine

/-- An option. -/
inductive Opt where
  | schema
  | skip
  | only
  | target
  | output
  | stdout
  | indentSpaces
  | help
  | version
deriving DecidableEq, Repr

/-- What the program is asked to do. -/
inductive Verb where
  | types
  | fields
  | generate
deriving DecidableEq, Repr

/-- The part of the command line that an argument stands in: before the verb, or after it. -/
inductive Level where
  | top
  | verb (v : Verb)
deriving DecidableEq, Repr

namespace Opt

/-- The long name. -/
def long : Opt → Text
  | schema => "schema".toList
  | skip => "skip".toList
  | only => "only".toList
  | target => "target".toList
  | output => "output".toList
  | stdout => "stdout".toList
  | indentSpaces => "indent-spaces".toList
  | help => "help".toList
  | version => "version".toList

/-- The short name. -/
def short? : Opt → Option Char
  | schema => some 's'
  | output => some 'o'
  | help => some 'h'
  | version => some 'V'
  | _ => none

/-- What the value is called, if the option takes one. -/
def value? : Opt → Option Text
  | schema => some "FILE".toList
  | skip => some "FIELD".toList
  | only => some "FIELD".toList
  | output => some "PATH".toList
  | indentSpaces => some "N".toList
  | _ => none

/-- Whether the option takes a value. -/
def takesValue (o : Opt) : Bool := o.value?.isSome

/-- Whether the option may be given again and again. -/
def repeatable : Opt → Bool
  | skip => true
  | only => true
  | _ => false

/-- The option as it is shown in messages. -/
def shown (o : Opt) : Text :=
  "--".toList ++ o.long ++
    match o.value? with
    | some v => " <".toList ++ v ++ ['>']
    | none => []

/-- The option that cannot be given beside this one. -/
def rival? : Opt → Option Opt
  | skip => some only
  | only => some skip
  | stdout => some output
  | output => some stdout
  | _ => none

end Opt

namespace Verb

/-- The verbs in the order in which they are listed. -/
def all : List Verb := [types, fields, generate]

/-- The name of a verb. -/
def name : Verb → Text
  | types => "types".toList
  | fields => "fields".toList
  | generate => "generate".toList

/-- The verb of a name. -/
def ofText? (t : Text) : Option Verb := all.find? (·.name = t)

/-- Whether the verb is followed by a script. -/
def takesScript : Verb → Bool
  | types => false
  | _ => true

end Verb

namespace Level

/-- The options that are known. -/
def options : Level → List Opt
  | top => [.schema, .help, .version]
  | verb .generate =>
    [.schema, .skip, .only, .target, .output, .stdout, .indentSpaces, .help]
  | verb _ => [.schema, .help]

/-- The option of a long name. -/
def long? (l : Level) (name : Text) : Option Opt := l.options.find? (·.long = name)

/-- The option of a short name. -/
def short? (l : Level) (c : Char) : Option Opt := l.options.find? (·.short? = some c)

/-- Whether a script may stand here. -/
def takesScript : Level → Bool
  | top => false
  | verb v => v.takesScript

end Level

/-- The word that asks for help. -/
def helpWord : Text := "help".toList

end EditorScaffold.CommandLine
