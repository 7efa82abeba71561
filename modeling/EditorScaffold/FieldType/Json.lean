import EditorScaffold.FieldType
import EditorScaffold.Json.Record

/-! # Field types in JSON

A field type is an object with a `kind` anywhere among its keys, or an array that starts with the kind; the
kind says which other keys count, and all others are ignored. A type inside another one may tell its kind
by a number as well. In a text the kind is judged where it stands; everything else of the type is read as a
tree first, so that what is wrong with it has no place of its own. -/

namespace EditorScaffold.FieldType

/-! ### Kinds -/

/-- The kinds of types, as they are spelled. -/
inductive Kind where
  | leaf (k : LeafKind)
  | text
  | container (c : Container)
  | generic
deriving DecidableEq, Repr

namespace Kind

/-- All kinds, in the order in which they are listed to people. -/
def all : List Kind :=
  [leaf .object, leaf .enumeration, leaf .value, text, container .array, container .list,
    leaf .plainClass, generic]

/-- The spelling of a kind. -/
def spelling : Kind → Text
  | leaf .object => "object".toList
  | leaf .enumeration => "enum".toList
  | leaf .value => "value".toList
  | text => "string".toList
  | container .array => "array".toList
  | container .list => "list".toList
  | leaf .plainClass => "class".toList
  | generic => "generic".toList

/-- What a kind is called in messages. -/
def title : Kind → Text
  | leaf .object => "EngineObject".toList
  | leaf .enumeration => "Enum".toList
  | leaf .value => "Value".toList
  | text => "String".toList
  | container .array => "Array".toList
  | container .list => "List".toList
  | leaf .plainClass => "Class".toList
  | generic => "Generic".toList

/-- The kind that a text spells. -/
def ofText (t : Text) : Except Json.Fault Kind :=
  match all.find? (·.spelling = t) with
  | some k => .ok k
  | none => .error (.unknownVariant t (all.map spelling))

/-- The words for a kind. -/
def wanted : Text := "variant identifier".toList

/-- The kind at a place in the order. -/
def ofIndex (n : Nat) : Except Json.Fault Kind :=
  match all[n]? with
  | some k => .ok k
  | none => .error (.unknownIndex n all.length)

/-- The kind that a tree spells. -/
def ofSpelling : Json → Except Json.Fault Kind
  | .string t => ofText t
  | v => .error (.wrongType v.found wanted)

/-- The kind that a tree spells, or whose place in the order it tells. -/
def ofJson : Json → Except Json.Fault Kind
  | .number n =>
    match n.number? with
    | some (.natural i) => ofIndex i
    | _ => ofSpelling (.number n)
  | v => ofSpelling v

end Kind

/-! ### Parts -/

/-- The key of the kind. -/
def kindKey : Text := "kind".toList

/-- The keys of the other parts. -/
inductive Slot where
  | name
  | element
  | args
deriving DecidableEq, Repr

namespace Slot

/-- The spelling of a key. -/
def label : Slot → Text
  | name => "name".toList
  | element => "element".toList
  | args => "args".toList

end Slot

/-- The parts that a kind asks for, in their order. -/
def Kind.slots : Kind → List Slot
  | .leaf _ => [.name]
  | .text => []
  | .container _ => [.element]
  | .generic => [.name, .args]

/-- The part that a key stands for in a type of this kind. -/
def Kind.slot? (k : Kind) (label : Text) : Option Slot := k.slots.find? (·.label = label)

/-- The parts read so far. -/
structure Parts where
  name : Option Text := none
  element : Option FieldType := none
  args : Option (List FieldType) := none

namespace Parts

/-- Whether a part has been read. -/
def has (p : Parts) : Slot → Bool
  | .name => p.name.isSome
  | .element => p.element.isSome
  | .args => p.args.isSome

/-- The type made of the parts. -/
def build (p : Parts) : Kind → Except Json.Fault FieldType
  | .leaf k => do return .leaf k (← Json.required Slot.name.label p.name)
  | .text => .ok .text
  | .container c => do return .container c (← Json.required Slot.element.label p.element)
  | .generic => do
    let name ← Json.required Slot.name.label p.name
    return .generic name (← Json.required Slot.args.label p.args)

end Parts

/-! ### From a tree -/

/-- The words for a field type. -/
def wanted : Text := "internally tagged enum TypeDescriptor".toList

/-- The words for a kind with its parts as an array. -/
def Kind.wantedItems (k : Kind) : Text :=
  "struct variant TypeDescriptor::".toList ++ k.title ++ " with ".toList ++ Json.elements k.slots.length

/-- The words for an array of the parts of a kind. -/
def Kind.wantedLength (k : Kind) : Text := Json.elements k.slots.length ++ " in sequence".toList

/-- The kind among the members of an object, and `kind` may not be repeated. -/
def kindOf : Option Kind → List (Text × Json) → Except Json.Fault Kind
  | none, [] => .error (.missingKey kindKey)
  | some k, [] => .ok k
  | k, (label, v) :: members =>
    if label = kindKey then
      match k with
      | some _ => .error (.repeatedKey kindKey)
      | none => do kindOf (some (← Kind.ofJson v)) members
    else kindOf k members

mutual

/-- The type that a tree spells, its kind spelled out or told by a number. -/
def ofTree : Json → Except Json.Fault FieldType
  | .object members => do
    let k ← kindOf none members
    (← ofMembers k {} members).build k
  | .array [] => .error (.missingKey kindKey)
  | .array (kind :: items) => do
    let k ← Kind.ofJson kind
    let parts ← ofItems k k.slots {} 0 items
    let t ← parts.build k
    if items.length ≤ k.slots.length then return t
    else throw (.wrongLength items.length k.wantedLength)
  | v => .error (.wrongType v.found wanted)

/-- The parts of a type of this kind among the members of an object. -/
def ofMembers (k : Kind) (parts : Parts) : List (Text × Json) → Except Json.Fault Parts
  | [] => .ok parts
  | (label, v) :: members =>
    match k.slot? label with
    | none => ofMembers k parts members
    | some slot =>
      if parts.has slot then .error (.repeatedKey label)
      else
        match slot, v with
        | .name, v => do ofMembers k { parts with name := ← Json.asString v } members
        | .element, v => do ofMembers k { parts with element := ← ofTree v } members
        | .args, .array items => do ofMembers k { parts with args := ← ofList items } members
        | .args, v => .error (.wrongType v.found Json.wantedList)

/-- The parts of a type of this kind as the items of an array; `n` items went before. -/
def ofItems (k : Kind) (slots : List Slot) (parts : Parts) (n : Nat) :
    List Json → Except Json.Fault Parts
  | [] =>
    match slots with
    | [] => .ok parts
    | _ :: _ => .error (.wrongLength n k.wantedItems)
  | v :: items =>
    match slots, v with
    | [], _ => .ok parts
    | .name :: slots, v => do ofItems k slots { parts with name := ← Json.asString v } (n + 1) items
    | .element :: slots, v => do ofItems k slots { parts with element := ← ofTree v } (n + 1) items
    | .args :: slots, .array ts => do ofItems k slots { parts with args := ← ofList ts } (n + 1) items
    | .args :: _, v => .error (.wrongType v.found Json.wantedList)

/-- The types that trees spell. -/
def ofList : List Json → Except Json.Fault (List FieldType)
  | [] => .ok []
  | v :: vs => do
    let t ← ofTree v
    return t :: (← ofList vs)

end

/-- Whether the kind of a type that stands by itself is spelled out. -/
def checkKind : Json → Except Json.Fault Unit
  | .object members =>
    match members.find? (·.1 = kindKey) with
    | some (_, v) => discard (Kind.ofSpelling v)
    | none => .ok ()
  | .array (kind :: _) => discard (Kind.ofSpelling kind)
  | _ => .ok ()

/-- The type that a tree spells by itself. -/
def ofJson (v : Json) : Except Json.Fault FieldType := do
  checkKind v
  ofTree v

/-! ### To a tree -/

/-- The key and spelling of a kind. -/
def Kind.member (k : Kind) : Text × Json := (kindKey, .string k.spelling)

mutual

/-- A type as a tree. -/
def toJson : FieldType → Json
  | .leaf k name => .object [(Kind.leaf k).member, (Slot.name.label, .string name)]
  | .text => .object [Kind.text.member]
  | .container c e => .object [(Kind.container c).member, (Slot.element.label, toJson e)]
  | .generic name args =>
    .object [Kind.generic.member, (Slot.name.label, .string name),
      (Slot.args.label, .array (toJsons args))]

/-- Types as trees. -/
def toJsons : List FieldType → List Json
  | [] => []
  | t :: ts => toJson t :: toJsons ts

end

/-! ### From a text -/

/-- Reads a kind. -/
def Kind.read : Json.Reader Kind :=
  Json.Reader.placed do
    let t ← Json.Reader.scalar Kind.wanted fun
      | .string t => some t
      | _ => none
    Json.Reader.ofExcept (Kind.ofText t)

/-- Reads a member of the object of a type: its kind, or another member as a tree. -/
def readMember (levels : Nat) (s : Option Kind × List (Text × Json)) (label : Text) :
    Json.Reader (Option Kind × List (Text × Json)) := do
  if label = kindKey then
    match s.1 with
    | some _ => Json.Reader.refuse (.repeatedKey kindKey)
    | none =>
      Json.Reader.colon
      return (some (← Kind.read), s.2)
  else
    Json.Reader.colon
    let v ← Json.Reader.tree levels
    return (s.1, (label, v) :: s.2)

/-- Reads the inside of the array of a type: its kind, and the other items as trees. -/
def readItems (levels : Nat) : Json.Reader (Kind × List Json) := do
  if ← Json.Reader.nextItem true then
    let k ← Kind.read
    let items ← Json.Reader.loop (fun (read : List Json) => do
      if ← Json.Reader.nextItem false then return .inl ((← Json.Reader.tree levels) :: read)
      else return .inr read.reverse) []
    return (k, items)
  else Json.Reader.refuse (.missingKey kindKey)

/-- Reads the tree of a type, its kind judged where it stands. -/
def readTree (levels : Nat) : Json.Reader Json :=
  Json.Reader.placed <| Json.Reader.valueOr
    (fun v => Json.Reader.refuse (.wrongType v.found wanted)) fun
    | .object => Json.Reader.bracketed .object levels fun levels => do
      let (k, members) ← Json.Reader.members (readMember levels) (none, [])
      match k with
      | some k => return .object (k.member :: members.reverse)
      | none => Json.Reader.refuse (.missingKey kindKey)
    | .list => Json.Reader.bracketed .list levels fun levels => do
      let (k, items) ← readItems levels
      return .array (.string k.spelling :: items)

/-- Reads a type with at most `levels` brackets inside each other. -/
def read (levels : Nat) : Json.Reader FieldType := do
  Json.Reader.ofExcept (ofTree (← readTree levels))

/-- The type that a text spells. -/
def ofText (t : Text) : Except Json.Error FieldType := (read Json.maxNesting).readAll t

end EditorScaffold.FieldType
