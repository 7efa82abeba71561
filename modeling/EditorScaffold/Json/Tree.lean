import EditorScaffold.Json.Fault

/-! # JSON trees

A tree keeps the members of an object in the order of the text, repeated keys included, and numbers as they
are spelled. `compact` writes it without blanks and each number by its value; `sorted` orders the members of
every object by key and keeps the last of the members with the same key. -/

namespace EditorScaffold

/-- A JSON value as a tree. -/
inductive Json where
  | null
  | bool (b : Bool)
  | number (n : Json.Numeral)
  | string (t : Text)
  | array (items : List Json)
  | object (members : List (Text × Json))

namespace Json

/-- What a value is, in messages. A numeral beyond the doubles counts as zero. -/
def found : Json → Found
  | null => .null
  | bool b => .bool b
  | number n => .number (n.number?.getD (.natural 0))
  | string t => .string t
  | array _ => .bracket .list
  | object _ => .bracket .object

/-! ### Text -/

/-- The two hexadecimal digits of a number below 256. -/
def hexPair (n : Nat) : Text := [Nat.digitChar (n / 16), Nat.digitChar (n % 16)]

/-- One character inside a JSON string. -/
def escapeChar (c : Char) : Text :=
  if c = '"' ∨ c = '\\' then ['\\', c]
  else if c = '\x08' then "\\b".toList
  else if c = '\x0c' then "\\f".toList
  else if c = '\n' then "\\n".toList
  else if c = '\r' then "\\r".toList
  else if c = '\t' then "\\t".toList
  else if c.toNat < 32 then "\\u00".toList ++ hexPair c.toNat
  else [c]

/-- A text as a JSON string. -/
def stringText (t : Text) : Text := '"' :: t.flatMap escapeChar ++ ['"']

/-- The value of a numeral as text; one without a value stays as it is spelled. -/
def numberText (n : Numeral) : Text :=
  match n.number? with
  | some v => v.text
  | none => n.text

mutual

/-- A tree as text, without blanks. -/
def compact : Json → Text
  | null => "null".toList
  | bool true => "true".toList
  | bool false => "false".toList
  | number n => numberText n
  | string t => stringText t
  | array items => '[' :: compactItems items ++ [']']
  | object members => '\x7b' :: compactMembers members ++ ['\x7d']

/-- The items of an array, with commas between them. -/
def compactItems : List Json → Text
  | [] => []
  | [v] => compact v
  | v :: w :: vs => compact v ++ ',' :: compactItems (w :: vs)

/-- The members of an object, with commas between them. -/
def compactMembers : List (Text × Json) → Text
  | [] => []
  | [(k, v)] => stringText k ++ ':' :: compact v
  | (k, v) :: m :: ms => stringText k ++ ':' :: compact v ++ ',' :: compactMembers (m :: ms)

end

/-! ### Sorted members -/

/-- A member put among members sorted by key, instead of one with the same key. -/
def insertMember (k : Text) (v : Json) : List (Text × Json) → List (Text × Json)
  | [] => [(k, v)]
  | (l, w) :: ms =>
    match Text.compare k l with
    | .lt => (k, v) :: (l, w) :: ms
    | .eq => (k, v) :: ms
    | .gt => (l, w) :: insertMember k v ms

mutual

/-- The tree with members sorted by key, the last of those with one key kept. -/
def sorted : Json → Json
  | array items => array (sortedItems items)
  | object members => object (sortedMembers members [])
  | v => v

/-- The items with their members sorted. -/
def sortedItems : List Json → List Json
  | [] => []
  | v :: vs => sorted v :: sortedItems vs

/-- The members put one by one among those that went before. -/
def sortedMembers : List (Text × Json) → List (Text × Json) → List (Text × Json)
  | [], acc => acc
  | (k, v) :: ms, acc => sortedMembers ms (insertMember k (sorted v) acc)

end

/-! ### Members -/

/-- The value of a key, if the tree is an object that has it. -/
def get? (key : Text) : Json → Option Json
  | object members => (members.find? (·.1 = key)).map (·.2)
  | _ => none

end Json

end EditorScaffold
