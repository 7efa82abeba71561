import EditorScaffold.Json.Reader.Basic

/-! # Strings and numerals in JSON text

A string is read to its characters, or skipped where its value does not matter: skipping looks at the shape
of the escapes only. A numeral is read to its parts; whether it is in range is asked only of those whose
value matters. -/

namespace EditorScaffold.Json.Reader

/-! ### Hexadecimal escapes -/

/-- The value of a hexadecimal digit. -/
def hexValue? (c : Char) : Option Nat :=
  if '0' ≤ c ∧ c ≤ '9' then some (c.toNat - 48)
  else if 'a' ≤ c ∧ c ≤ 'f' then some (c.toNat - 87)
  else if 'A' ≤ c ∧ c ≤ 'F' then some (c.toNat - 55)
  else none

/-- Reads four bytes as hexadecimal digits. -/
def hexWord : Reader Nat := fun c =>
  match (c.rest.take 4).mapM hexValue? with
  | some [w, x, y, z] => .ok (((w * 16 + x) * 16 + y) * 16 + z, c.advance 4)
  | _ =>
    if Text.byteSize c.rest < 4 then stopAt c.final .endOfString c
    else stopAt (c.offset + 4) .badEscape c

/-- Whether a number is the first half of a surrogate pair. -/
def isHighSurrogate (n : Nat) : Bool := 0xD800 ≤ n && n ≤ 0xDBFF

/-- Whether a number is the second half of a surrogate pair. -/
def isLowSurrogate (n : Nat) : Bool := 0xDC00 ≤ n && n ≤ 0xDFFF

/-- Reads one character that has to come between the halves of a surrogate pair. -/
def between (c : Char) : Reader Unit := do
  match ← peek? with
  | none => stopHere .endOfString
  | some d => if d = c then skip 1 else stopPeeked .unfinishedPair

/-- Reads the character of a hexadecimal escape, which may be a pair of them. -/
def hexChar : Reader Char := do
  let n ← hexWord
  if isLowSurrogate n then stopHere .loneSurrogate
  else if isHighSurrogate n then
    between '\\'
    between 'u'
    let m ← hexWord
    if isLowSurrogate m then pure (Char.ofNat (0x10000 + (n - 0xD800) * 0x400 + (m - 0xDC00)))
    else stopHere .loneSurrogate
  else pure (Char.ofNat n)

/-! ### Strings -/

/-- The character that a one-letter escape stands for. -/
def simpleEscape? : Char → Option Char
  | '"' => some '"'
  | '\\' => some '\\'
  | '/' => some '/'
  | 'b' => some '\x08'
  | 'f' => some '\x0c'
  | 'n' => some '\n'
  | 'r' => some '\r'
  | 't' => some '\t'
  | _ => none

/-- Reads the character of an escape, after its backslash. -/
def escape : Reader Char := do
  match ← peek? with
  | none => stopHere .endOfString
  | some 'u' => skip 1 *> hexChar
  | some c =>
    match simpleEscape? c with
    | some d => skip 1 *> pure d
    | none => stopPeeked .badEscape

/-- One character of a string, or its end. -/
def stringStep (read : Text) : Reader (Text ⊕ Text) := do
  match ← peek? with
  | none => stopHere .endOfString
  | some '"' => skip 1 *> pure (.inr read.reverse)
  | some '\\' => do
    skip 1
    let c ← escape
    pure (.inl (c :: read))
  | some c =>
    if c.toNat < 32 then stopPeeked .controlCharacter
    else skip 1 *> pure (.inl (c :: read))

/-- Reads a string, after the quote that opens it. -/
def string : Reader Text := loop stringStep []

/-- Skips the character of an escape, after its backslash. -/
def skipEscape : Reader Unit := do
  match ← peek? with
  | none => stopHere .endOfString
  | some 'u' => skip 1 *> discard hexWord
  | some c =>
    match simpleEscape? c with
    | some _ => skip 1
    | none => stopPeeked .badEscape

/-- Skips one character of a string, or its end. -/
def skipStringStep (_ : Unit) : Reader (Unit ⊕ Unit) := do
  match ← peek? with
  | none => stopHere .endOfString
  | some '"' => skip 1 *> pure (.inr ())
  | some '\\' => skip 1 *> skipEscape *> pure (.inl ())
  | some c =>
    if c.toNat < 32 then stopHere .controlCharacter
    else skip 1 *> pure (.inl ())

/-- Skips a string, after the quote that opens it. -/
def skipString : Reader Unit := loop skipStringStep ()

/-! ### Numerals -/

/-- Reads the longest run of digits. -/
def digits : Reader (List Digit) := do
  return (← run fun c => (digit? c).isSome).filterMap digit?

/-- Reads the whole part: one zero, or digits that do not start with a zero. `ending` is the fault of a text
that ends here. -/
def wholePart (ending : Fault) : Reader Nat := do
  match ← peek? with
  | none => stopHere ending
  | some '0' => do
    skip 1
    match (← peek?).bind digit? with
    | some _ => stopPeeked .badNumber
    | none => pure 0
  | some c =>
    match digit? c with
    | some _ => return ofDigits (← digits)
    | none => stopPeeked .badNumber

/-- Reads the digits after a point, of which there is at least one. -/
def fractionPart (ending : Fault) : Reader (List Digit) := do
  let ds ← digits
  if ds = [] then
    match ← peek? with
    | none => stopHere ending
    | some _ => stopPeeked .badNumber
  else pure ds

/-- Reads the sign and digits of an exponent. -/
def exponentPart (ending : Fault) : Reader Int := do
  let negative ← do
    match ← peek? with
    | some '-' => skip 1 *> pure true
    | some '+' => skip 1 *> pure false
    | _ => pure false
  let ds ← fractionPart ending
  pure (if negative then -(ofDigits ds : Int) else ofDigits ds)

/-- Reads a numeral after its sign. -/
def numeral (ending : Fault) (negative : Bool) : Reader Numeral := do
  let whole ← wholePart ending
  let fraction ← do
    match ← peek? with
    | some '.' => skip 1 *> fractionPart ending
    | _ => pure []
  let exponent ← do
    match ← peek? with
    | some 'e' | some 'E' => skip 1 *> some <$> exponentPart ending
    | _ => pure none
  pure ⟨negative, whole, fraction, exponent⟩

/-- The greatest exponent that is counted. -/
def maxExponent : Nat := Nat.pow 2 31 - 1

/-- The number of digits of an exponent up to the first at which it passes the greatest one. -/
def countedDigits : Nat → List Digit → Nat
  | _, [] => 0
  | n, d :: ds => if maxExponent < 10 * n + d.val then 1 else 1 + countedDigits (10 * n + d.val) ds

/-- Where a numeral of this spelling is found to be out of range: at its end, or inside its exponent. -/
def rangePlace (start : Nat) (spelling : Text) : Nat :=
  let mantissa := spelling.takeWhile fun c => c ≠ 'e' && c ≠ 'E'
  let exponent := (spelling.drop mantissa.length).filterMap digit?
  start + spelling.length - (exponent.length - countedDigits 0 exponent)

/-- Reads a numeral whose value matters. -/
def number (negative : Bool) : Reader Numeral := fun c =>
  match numeral .endOfValue negative c with
  | .ok (n, c') =>
    if n.number?.isSome then .ok (n, c')
    else
      let spelling := c.rest.take (c'.offset - c.offset)
      stopAt (rangePlace c.offset spelling) .numberOutOfRange c'
  | .error stop => .error stop

end EditorScaffold.Json.Reader
