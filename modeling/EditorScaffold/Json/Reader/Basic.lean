import EditorScaffold.Json.Fault

/-! # Readers of JSON text

A reader takes a cursor, the rest of a text and the number of bytes read, to a result and a later cursor, or
stops. It stops at a place (a count of bytes), or, where the fault is not one of the text but of what it
spells, without one; the bracket that is open is then read to its end as far as possible, and the place is
the one reached (`closing`). -/

namespace EditorScaffold.Json

/-- The rest of a text, and the number of bytes before it. -/
structure Cursor where
  rest : Text
  offset : Nat
deriving DecidableEq, Repr

/-- Why a reader stopped, the place in bytes if it has one, and how far it had read. -/
structure Stop where
  fault : Fault
  place : Option Nat
  cursor : Cursor
deriving DecidableEq, Repr

/-- A reader of a result. -/
abbrev Reader := StateT Cursor (Except Stop)

namespace Cursor

/-- The start of a text. -/
def start (t : Text) : Cursor := ⟨t, 0⟩

/-- The cursor after `n` more characters. -/
def advance (c : Cursor) (n : Nat) : Cursor :=
  ⟨c.rest.drop n, c.offset + Text.byteSize (c.rest.take n)⟩

/-- The place of the byte after the cursor: one byte on, unless the text ends. -/
def peeked (c : Cursor) : Nat := if c.rest = [] then c.offset else c.offset + 1

/-- The place of the end of the text. -/
def final (c : Cursor) : Nat := c.offset + Text.byteSize c.rest

end Cursor

namespace Reader

variable {α β σ : Type}

/-! ### Stopping -/

/-- Stops at a place. -/
def stopAt (place : Nat) (fault : Fault) : Reader α := fun c => .error ⟨fault, some place, c⟩

/-- Stops at the bytes read so far. -/
def stopHere (fault : Fault) : Reader α := fun c => .error ⟨fault, some c.offset, c⟩

/-- Stops at the next byte, which is counted. -/
def stopPeeked (fault : Fault) : Reader α := fun c => .error ⟨fault, some c.peeked, c⟩

/-- Stops without a place. -/
def refuse (fault : Fault) : Reader α := fun c => .error ⟨fault, none, c⟩

/-- A result or a refusal. -/
def ofExcept : Except Fault α → Reader α
  | .ok a => pure a
  | .error fault => refuse fault

/-- A reader whose refusals get the place reached. -/
def placed (r : Reader α) : Reader α := fun c =>
  match r c with
  | .error ⟨fault, none, c'⟩ => .error ⟨fault, some c'.offset, c'⟩
  | answer => answer

/-! ### Characters -/

/-- The next character. -/
def peek? : Reader (Option Char) := fun c => .ok (c.rest.head?, c)

/-- Goes on by `n` characters. -/
def skip (n : Nat) : Reader Unit := fun c => .ok ((), c.advance n)

/-- Reads the longest run of characters with a property. -/
def run (p : Char → Bool) : Reader Text := fun c =>
  let t := c.rest.takeWhile p
  .ok (t, c.advance t.length)

/-- The blanks of JSON. -/
def isBlank (c : Char) : Bool := c = ' ' || c = '\n' || c = '\t' || c = '\r'

/-- Skips blanks and tells the next character. -/
def next? : Reader (Option Char) := do
  let _ ← run isBlank
  peek?

/-- Reads the characters of a literal after its first one. -/
def literal : Text → Reader Unit
  | [] => pure ()
  | c :: t => do
    match ← peek? with
    | none => stopHere .endOfValue
    | some d => if d = c then skip 1 *> literal t else stopPeeked .expectedLiteral

/-! ### Repetition -/

/-- Repeats a step until it has a result, at most `fuel` times. -/
def iterate (step : σ → Reader (σ ⊕ β)) : Nat → σ → Reader β
  | 0, _ => stopHere .tooDeep
  | fuel + 1, s => do
    match ← step s with
    | .inl s => iterate step fuel s
    | .inr b => pure b

/-- Repeats a step until it has a result. Every step that goes on reads at least one character, so the
length of the rest is enough. -/
def loop (step : σ → Reader (σ ⊕ β)) (s : σ) : Reader β := fun c =>
  iterate step (c.rest.length + 1) s c

/-! ### Brackets -/

/-- Reads the end of an open bracket after its last item. -/
def close (b : Bracket) : Reader Unit := do
  match ← next? with
  | none => stopPeeked (.endOfBracket b)
  | some c =>
    if c = b.closing then skip 1
    else if c = ',' then
      match b with
      | .object => stopPeeked .trailingComma
      | .list => do
        skip 1
        match ← next? with
        | some ']' => stopPeeked .trailingComma
        | _ => stopPeeked .trailingCharacters
    else stopPeeked .trailingCharacters

/-- Reads the inside of an open bracket and then its end. A refusal inside gets the place that is reached
by reading the end all the same. -/
def closing (b : Bracket) (inside : Reader α) : Reader α := fun c =>
  match inside c with
  | .ok (a, c') =>
    match close b c' with
    | .ok ((), c'') => .ok (a, c'')
    | .error stop => .error stop
  | .error ⟨fault, none, c'⟩ =>
    match close b c' with
    | .ok ((), c'') => .error ⟨fault, some c''.offset, c''⟩
    | .error ⟨_, _, c''⟩ => .error ⟨fault, some c''.offset, c''⟩
  | .error stop => .error stop

/-- Whether another item of a list follows; the comma before it is read. -/
def nextItem (first : Bool) : Reader Bool := do
  match ← next? with
  | none => stopPeeked (.endOfBracket .list)
  | some ']' => pure false
  | some c =>
    if first then pure true
    else if c = ',' then do
      skip 1
      match ← next? with
      | none => stopPeeked .endOfValue
      | some ']' => stopPeeked .trailingComma
      | some _ => pure true
    else stopPeeked (.expectedCommaOrEnd .list)

/-- Whether another member of an object follows; the comma before it and the quote that opens its key are
read. -/
def nextMember (first : Bool) : Reader Bool := do
  match ← next? with
  | none => stopPeeked (.endOfBracket .object)
  | some '\x7d' => pure false
  | some c =>
    if first then
      if c = '"' then skip 1 *> pure true else stopPeeked .keyNotString
    else if c = ',' then do
      skip 1
      match ← next? with
      | none => stopPeeked .endOfValue
      | some '"' => skip 1 *> pure true
      | some '\x7d' => stopPeeked .trailingComma
      | some _ => stopPeeked .keyNotString
    else stopPeeked (.expectedCommaOrEnd .object)

/-- Reads the colon between a key and its value. -/
def colon : Reader Unit := do
  match ← next? with
  | none => stopPeeked (.endOfBracket .object)
  | some ':' => skip 1
  | some _ => stopPeeked .expectedColon

/-! ### Whole texts -/

/-- The end of the text: nothing but blanks may be left. -/
def finish : Reader Unit := do
  match ← next? with
  | none => pure ()
  | some _ => stopPeeked .trailingCharacters

/-- Reads a whole text. -/
def readAll (r : Reader α) (t : Text) : Except Error α :=
  match (r <* finish) (.start t) with
  | .ok (a, _) => .ok a
  | .error stop => .error ⟨stop.fault, stop.place.map (Position.after (Text.bytes t))⟩

end Reader

end EditorScaffold.Json
