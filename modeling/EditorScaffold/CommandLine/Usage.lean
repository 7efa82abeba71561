import EditorScaffold.CommandLine.Help
import EditorScaffold.Text.Plain

/-! # Usage errors

Why a command line is not carried out: it asks for help or the version, it says nothing at all, or there is
something wrong with it. What was given is repeated as plain text, so that no message steers a terminal. A
message may be asked for as a text of its own, or be printed; in print a blank control pauses a sequence
that it stands in, and in a text it ends it. -/

namespace EditorScaffold.CommandLine

/-- What is wrong with a number. -/
inductive NumberFault where
  | empty
  | badDigit
  | tooLarge
deriving DecidableEq, Repr

/-- What is wrong with a command line. -/
inductive Usage where
  | unknownArgument (arg : Text)
  | unknownVerb (name : Text)
  | missingVerb
  | missingScript
  | missingValue (o : Opt)
  | repeated (o : Opt)
  | rivals (first second : Opt)
  | unwantedValue (o : Opt) (value : Text)
  | badNumber (o : Opt) (value : Text) (fault : NumberFault)
deriving DecidableEq, Repr

/-- Why a command line is not carried out. -/
inductive Refusal where
  | help (t : Topic)
  | version
  | nothingAsked
  | usage (u : Usage)
deriving DecidableEq, Repr

/-! ### Wording -/

/-- A text between straight quotes. -/
def tickedArg (t : Text) : Text := '\'' :: t ++ ['\'']

/-- What shows of a text that was given, between straight quotes. -/
def tickedGiven (i : Text.Interruption) (t : Text) : Text := tickedArg (t.plain i)

namespace NumberFault

/-- The words for a fault. -/
def message : NumberFault → Text
  | empty => "cannot parse integer from empty string".toList
  | badDigit => "invalid digit found in string".toList
  | tooLarge => "number too large to fit in target type".toList

end NumberFault

namespace Usage

/-- The words for an error. -/
def words (i : Text.Interruption) : Usage → Text
  | unknownArgument arg => "unexpected argument ".toList ++ tickedGiven i arg ++ " found".toList
  | unknownVerb name => "unrecognized subcommand ".toList ++ tickedGiven i name
  | missingVerb => tickedArg Topic.program ++ " requires a subcommand but one was not provided".toList
  | missingScript => "the following required arguments were not provided:".toList
  | missingValue o =>
    "a value is required for ".toList ++ tickedArg o.shown ++ " but none was supplied".toList
  | repeated o =>
    "the argument ".toList ++ tickedArg o.shown ++ " cannot be used multiple times".toList
  | rivals first second =>
    "the argument ".toList ++ tickedArg first.shown ++ " cannot be used with ".toList ++
      tickedArg second.shown
  | unwantedValue o value =>
    "unexpected value ".toList ++ tickedGiven i value ++ " for ".toList ++ tickedArg o.shown ++
      " found; no more were expected".toList
  | badNumber o value fault =>
    "invalid value ".toList ++ tickedGiven i value ++ " for ".toList ++ tickedArg o.shown ++ ": ".toList ++
      fault.message

end Usage

namespace Refusal

/-- The text that tells of a refusal: help, the version, or an error. -/
def text (i : Text.Interruption) : Refusal → Text
  | help t => t.text
  | version => Topic.versionLine
  | nothingAsked => (Topic.level .top).text
  | usage u => "error: ".toList ++ u.words i

/-- The text of its own: help and the version whole, of an error the first line. -/
def message : Refusal → Text
  | usage u => Text.firstLine (text .ends (usage u))
  | r => r.text .ends

/-- The text in print. -/
def printed (r : Refusal) : Text := r.text .pauses

/-- Whether the text was asked for. -/
def wasAsked : Refusal → Bool
  | help _ => true
  | version => true
  | _ => false

/-- The exit code. -/
def exitCode (r : Refusal) : Nat := if r.wasAsked then 0 else 2

end Refusal

end EditorScaffold.CommandLine
