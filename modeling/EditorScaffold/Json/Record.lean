import EditorScaffold.Json.Reader.Skip
import EditorScaffold.Json.Reader.Tree

/-! # Records in JSON

A record is spelled by an object, its keys in any order and unknown keys ignored, or by an array of its
parts in their order, where parts that may be left out can be missing at the end. Each known key gives one
part, and `build` puts the parts together. The same record is read from a tree (`ofTree`) and from a text
(`read`); the first fault in the order of the members wins, and keys that are missing come last. -/

namespace EditorScaffold.Json

/-- A key of a record, and whether it must be there. -/
structure Key where
  label : Text
  required : Bool

/-- How parts `π` make up a record `α`. -/
structure Record (π α : Type) where
  /-- What the record is called in messages. -/
  title : Text
  /-- The keys in their order. -/
  keys : List Key
  /-- The key that a part belongs to. -/
  label : π → Text
  /-- The part that a tree spells under a key. -/
  part : Text → Json → Except Fault π
  /-- The record made of parts. -/
  build : List π → Except Fault α

/-- The part for a key that must be there. -/
def required {α : Type} (label : Text) : Option α → Except Fault α
  | some a => .ok a
  | none => .error (.missingKey label)

/-- The words for the elements of an array of known length. -/
def elements (n : Nat) : Text :=
  Text.ofNat n ++ (if n = 1 then " element".toList else " elements".toList)

namespace Record

variable {π α : Type} (r : Record π α)

/-- The words for the record. -/
def wanted : Text := "struct ".toList ++ r.title

/-- The words for the record as an array. -/
def wantedItems : Text := r.wanted ++ " with ".toList ++ elements r.keys.length

/-- Whether a key is one of the record's. -/
def knows (label : Text) : Bool := r.keys.any (·.label = label)

/-- Whether one of the parts belongs to a key. -/
def given (parts : List π) (label : Text) : Bool := parts.any (r.label · = label)

/-! ### From a tree -/

/-- The parts with that of another member. -/
def addMember (parts : List π) (member : Text × Json) : Except Fault (List π) :=
  if r.knows member.1 then
    if r.given parts member.1 then .error (.repeatedKey member.1)
    else return parts ++ [← r.part member.1 member.2]
  else .ok parts

/-- The parts of the items of an array, and the items left over; `n` keys went before. -/
def ofItems (n : Nat) : List Key → List Json → Except Fault (List π × List Json)
  | [], items => .ok ([], items)
  | key :: keys, [] =>
    if key.required then .error (.wrongLength n r.wantedItems) else ofItems (n + 1) keys []
  | key :: keys, item :: items => do
    let part ← r.part key.label item
    let (parts, rest) ← ofItems (n + 1) keys items
    return (part :: parts, rest)

/-- The record that a tree spells. -/
def ofTree : Json → Except Fault α
  | .object members => members.foldlM r.addMember [] >>= r.build
  | .array items => do
    let (parts, rest) ← r.ofItems 0 r.keys items
    let a ← r.build parts
    if rest.isEmpty then return a
    else throw (.wrongLength items.length "fewer elements in array".toList)
  | v => .error (.wrongType v.found r.wanted)

/-! ### From a text -/

/-- Reads the value of a key into the parts; `part` reads the value of a known key. -/
def readMember (part : Text → Reader π) (parts : List π) (label : Text) : Reader (List π) := do
  if r.knows label then
    if r.given parts label then Reader.refuse (.repeatedKey label)
    else
      Reader.colon
      return parts ++ [← part label]
  else
    Reader.colon
    Reader.skipValue
    return parts

/-- Reads the items of an array as parts; `n` keys went before. -/
def readItems (part : Text → Reader π) (n : Nat) : List Key → Reader (List π)
  | [] => pure []
  | key :: keys => do
    if ← Reader.nextItem (n == 0) then
      let p ← part key.label
      return p :: (← readItems part (n + 1) keys)
    else if key.required then Reader.refuse (.wrongLength n r.wantedItems)
    else readItems part (n + 1) keys

/-- Reads the record with at most `levels` brackets inside each other; `part` reads the value of a known
key. -/
def read (part : Nat → Text → Reader π) (levels : Nat) : Reader α :=
  Reader.placed <| Reader.valueOr (fun v => Reader.refuse (.wrongType v.found r.wanted)) fun
    | .object => Reader.bracketed .object levels fun levels => do
      Reader.ofExcept (r.build (← Reader.members (r.readMember (part levels)) []))
    | .list => Reader.bracketed .list levels fun levels => do
      Reader.ofExcept (r.build (← r.readItems (part levels) 0 r.keys))

end Record

/-! ### Simple values -/

/-- The words for a text. -/
def wantedString : Text := "a string".toList

/-- The words for a truth value. -/
def wantedBool : Text := "a boolean".toList

/-- The words for a list. -/
def wantedList : Text := "a sequence".toList

/-- The text that a tree spells. -/
def asString : Json → Except Fault Text
  | .string t => .ok t
  | v => .error (.wrongType v.found wantedString)

/-- The truth value that a tree spells. -/
def asBool : Json → Except Fault Bool
  | .bool b => .ok b
  | v => .error (.wrongType v.found wantedBool)

/-- The list that a tree spells, each item by `item`. -/
def asList {α : Type} (item : Json → Except Fault α) : Json → Except Fault (List α)
  | .array items => items.mapM item
  | v => .error (.wrongType v.found wantedList)

namespace Reader

variable {α : Type}

/-- Reads a value that is not in brackets. -/
def scalar (wanted : Text) (ofTree : Json → Option α) : Reader α :=
  placed <| valueOr
    (fun v => match ofTree v with
      | some a => pure a
      | none => refuse (.wrongType v.found wanted))
    fun b => refuse (.wrongType (.bracket b) wanted)

/-- Reads a text. -/
def text : Reader Text := scalar wantedString fun
  | .string t => some t
  | _ => none

/-- Reads a text, or nothing where there is a null. -/
def text? : Reader (Option Text) := scalar wantedString fun
  | .string t => some (some t)
  | .null => some none
  | _ => none

/-- Reads a truth value. -/
def bool : Reader Bool := scalar wantedBool fun
  | .bool b => some b
  | _ => none

/-- Reads a null. -/
def unit : Reader Unit := scalar "unit".toList fun
  | .null => some ()
  | _ => none

/-- Reads a list, each item by `item`. -/
def list (item : Nat → Reader α) (levels : Nat) : Reader (List α) :=
  placed <| valueOr (fun v => refuse (.wrongType v.found wantedList)) fun
    | .object => refuse (.wrongType (.bracket .object) wantedList)
    | .list => bracketed .list levels fun levels => items (item levels)

end Reader

end EditorScaffold.Json
