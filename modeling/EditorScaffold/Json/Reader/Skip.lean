import EditorScaffold.Json.Reader.Scalar

/-! # Skipping a value

The value of a key that nobody asks for is skipped. Brackets are kept on a stack, so any nesting is
accepted, and numbers of any size are. -/

namespace EditorScaffold.Json.Reader

/-- Skips a value that is not in brackets, or tells the bracket that is opened. -/
def skipScalar : Reader (Option Bracket) := do
  match ← next? with
  | none => stopPeeked .endOfValue
  | some 'n' => skip 1 *> literal "ull".toList *> pure none
  | some 't' => skip 1 *> literal "rue".toList *> pure none
  | some 'f' => skip 1 *> literal "alse".toList *> pure none
  | some '-' => skip 1 *> numeral .badNumber true *> pure none
  | some '"' => skip 1 *> skipString *> pure none
  | some '[' => skip 1 *> pure (some .list)
  | some '\x7b' => skip 1 *> pure (some .object)
  | some c =>
    match digit? c with
    | some _ => numeral .badNumber false *> pure none
    | none => stopPeeked .expectedValue

/-- Reads the ends of open brackets, innermost first, up to one in which another value follows. A comma may
only come after a value. -/
def skipEnds : List Bracket → Bool → Reader (Option (Bracket × List Bracket))
  | [], _ => pure none
  | b :: outer, afterValue => do
    match ← next? with
    | none => stopPeeked (.endOfBracket b)
    | some c =>
      if afterValue && c = ',' then skip 1 *> pure (some (b, outer))
      else if c = b.closing then skip 1 *> skipEnds outer true
      else if afterValue then stopPeeked (.expectedCommaOrEnd b)
      else pure (some (b, outer))

/-- Skips the key of the next member. -/
def skipKey : Reader Unit := do
  match ← next? with
  | none => stopPeeked (.endOfBracket .object)
  | some '"' => skip 1 *> skipString *> colon
  | some _ => stopPeeked .keyNotString

/-- Skips up to the next value inside the open brackets, or to the end of them all. -/
def skipStep (outer : List Bracket) : Reader (List Bracket ⊕ Unit) := do
  let more ← do
    match ← skipScalar with
    | some b => skipEnds (b :: outer) false
    | none => skipEnds outer true
  match more with
  | none => pure (.inr ())
  | some (.list, outer) => pure (.inl (.list :: outer))
  | some (.object, outer) => skipKey *> pure (.inl (.object :: outer))

/-- Skips a value. -/
def skipValue : Reader Unit := loop skipStep []

end EditorScaffold.Json.Reader
