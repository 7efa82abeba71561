import EditorScaffold.Json.Numeral
import EditorScaffold.Text.Position
import EditorScaffold.Text.Quoted

/-! # Faults

What can be wrong with a JSON text, or with a JSON value that should spell something, and the wording of
each. An error is a fault, with the place where reading stopped if it is known. -/

namespace EditorScaffold.Json

/-- The two kinds of brackets. -/
inductive Bracket where
  | list
  | object
deriving DecidableEq, Repr

namespace Bracket

/-- The opening character. -/
def opening : Bracket → Char
  | .list => '['
  | .object => '\x7b'

/-- The closing character. -/
def closing : Bracket → Char
  | .list => ']'
  | .object => '\x7d'

end Bracket

/-- What was found where something else was wanted. -/
inductive Found where
  | null
  | bool (b : Bool)
  | number (n : Number)
  | string (t : Text)
  | bracket (b : Bracket)
deriving DecidableEq, Repr

/-- What is wrong. -/
inductive Fault where
  | endOfValue
  | endOfString
  | endOfBracket (b : Bracket)
  | expectedValue
  | expectedColon
  | expectedCommaOrEnd (b : Bracket)
  | expectedLiteral
  | keyNotString
  | trailingComma
  | trailingCharacters
  | badNumber
  | numberOutOfRange
  | badEscape
  | unfinishedPair
  | loneSurrogate
  | controlCharacter
  | tooDeep
  | wrongType (found : Found) (wanted : Text)
  | wrongLength (length : Nat) (wanted : Text)
  | missingKey (key : Text)
  | repeatedKey (key : Text)
  | unknownVariant (name : Text) (known : List Text)
  | unknownIndex (index bound : Nat)
  | notSingleKey
deriving DecidableEq, Repr

/-! ### Wording -/

/-- A text between backquotes. -/
def ticked (t : Text) : Text := '\x60' :: t ++ ['\x60']

namespace Found

/-- The words for what was found. -/
def text : Found → Text
  | .null => "null".toList
  | .bool true => "boolean ".toList ++ ticked "true".toList
  | .bool false => "boolean ".toList ++ ticked "false".toList
  | .number (.double neg b) => "floating point ".toList ++ ticked (Number.double neg b).text
  | .number n => "integer ".toList ++ ticked n.text
  | .string t => "string ".toList ++ t.quoted
  | .bracket .list => "sequence".toList
  | .bracket .object => "map".toList

end Found

namespace Fault

/-- The words for the names that were known. -/
def expectation : List Text → Text
  | [a] => "expected ".toList ++ ticked a
  | [a, b] => "expected ".toList ++ ticked a ++ " or ".toList ++ ticked b
  | names => "expected one of ".toList ++ List.intercalate ", ".toList (names.map ticked)

/-- The wording of a fault. -/
def message : Fault → Text
  | .endOfValue => "EOF while parsing a value".toList
  | .endOfString => "EOF while parsing a string".toList
  | .endOfBracket .list => "EOF while parsing a list".toList
  | .endOfBracket .object => "EOF while parsing an object".toList
  | .expectedValue => "expected value".toList
  | .expectedColon => "expected ".toList ++ ticked [':']
  | .expectedCommaOrEnd b => "expected ".toList ++ ticked [','] ++ " or ".toList ++ ticked [b.closing]
  | .expectedLiteral => "expected ident".toList
  | .keyNotString => "key must be a string".toList
  | .trailingComma => "trailing comma".toList
  | .trailingCharacters => "trailing characters".toList
  | .badNumber => "invalid number".toList
  | .numberOutOfRange => "number out of range".toList
  | .badEscape => "invalid escape".toList
  | .unfinishedPair => "unexpected end of hex escape".toList
  | .loneSurrogate => "lone leading surrogate in hex escape".toList
  | .controlCharacter => "control character (\\u0000-\\u001F) found while parsing a string".toList
  | .tooDeep => "recursion limit exceeded".toList
  | .wrongType found wanted => "invalid type: ".toList ++ found.text ++ ", expected ".toList ++ wanted
  | .wrongLength n wanted => "invalid length ".toList ++ Text.ofNat n ++ ", expected ".toList ++ wanted
  | .missingKey key => "missing field ".toList ++ ticked key
  | .repeatedKey key => "duplicate field ".toList ++ ticked key
  | .unknownVariant name known =>
    "unknown variant ".toList ++ ticked name ++ ", ".toList ++ expectation known
  | .unknownIndex index bound =>
    "invalid value: integer ".toList ++ ticked (Text.ofNat index) ++
      ", expected variant index 0 <= i < ".toList ++ Text.ofNat bound
  | .notSingleKey => "invalid value: map, expected map with a single key".toList

end Fault

/-! ### Errors -/

/-- A fault, and the place where reading stopped if it is known. -/
structure Error where
  fault : Fault
  position : Option Position
deriving DecidableEq, Repr

namespace Error

/-- The wording of an error. -/
def message (e : Error) : Text :=
  e.fault.message ++
    match e.position with
    | none => []
    | some p => " at line ".toList ++ Text.ofNat p.line ++ " column ".toList ++ Text.ofNat p.column

end Error

end EditorScaffold.Json
