import EditorScaffold.Decimal.Shortest

/-! # Numerals and numbers

A numeral is a number as JSON spells it. Its value is a natural number below `2 ^ 64`, a negative one down
to `-2 ^ 63`, or otherwise a double; a numeral beyond the largest double has no value. -/

namespace EditorScaffold.Json

/-- A decimal digit. -/
abbrev Digit := Fin 10

/-- A number as it is spelled: sign, whole part, digits after the point, exponent. -/
structure Numeral where
  negative : Bool
  whole : Nat
  fraction : List Digit
  exponent : Option Int
deriving DecidableEq, Repr

/-- The value of a numeral. -/
inductive Number where
  | natural (n : Nat)
  | negative (n : Nat)
  | double (negative : Bool) (magnitude : Binary64)
deriving DecidableEq, Repr

/-- The character of a digit. -/
def digitChar (d : Digit) : Char := Nat.digitChar d.val

/-- The digit that a character stands for. -/
def digit? (c : Char) : Option Digit :=
  if h : 48 ≤ c.toNat ∧ c.toNat < 58 then some ⟨c.toNat - 48, by omega⟩ else none

/-- The number that digits spell. -/
def ofDigits (ds : List Digit) : Nat := ds.foldl (fun n d => 10 * n + d.val) 0

/-- The digits of a number. -/
def toDigits (n : Nat) : List Digit := (Text.ofNat n).filterMap digit?

namespace Numeral

/-! ### Values -/

/-- The naturals that are kept as they are lie below this bound. -/
def wordBound : Nat := Nat.pow 2 64

/-- Digits appended to a number as long as it stays below the bound, and the digits left over. -/
def accumulate (n : Nat) : List Digit → Nat × List Digit
  | [] => (n, [])
  | d :: ds => if 10 * n + d.val < wordBound then accumulate (10 * n + d.val) ds else (n, d :: ds)

/-- The leading digits as a number below the bound, and the power of ten that they are to be taken by. -/
def leading (n : Numeral) : Nat × Int :=
  let (whole, dropped) := accumulate 0 (toDigits n.whole)
  let (lead, rest) := accumulate whole n.fraction
  (lead, (dropped.length : Int) - (n.fraction.length - rest.length) + n.exponent.getD 0)

/-- The double nearest to the leading digits, scaled. -/
def magnitude? (n : Numeral) : Option Binary64 :=
  (Binary64.round n.leading.1 1).bind fun f => f.scaleTen n.leading.2

/-- The value, if it is in the range of a double. -/
def number? (n : Numeral) : Option Number :=
  if n.fraction = [] ∧ n.exponent = none ∧ n.whole < wordBound ∧
      (n.negative → 0 < n.whole ∧ n.whole ≤ Nat.pow 2 63) then
    some (if n.negative then .negative n.whole else .natural n.whole)
  else n.magnitude?.map (.double n.negative)

/-! ### Text -/

/-- A numeral as text, its exponent with a sign. -/
def text (n : Numeral) : Text :=
  (if n.negative then ['-'] else []) ++ Text.ofNat n.whole ++
    (if n.fraction = [] then [] else '.' :: n.fraction.map digitChar) ++
    (match n.exponent with
      | none => []
      | some e => DecimalStyle.exponentText e)

end Numeral

namespace Number

/-- Doubles are written out while the point falls from four places before the first digit to sixteen
after it. -/
def style : DecimalStyle := ⟨-4, 16⟩

/-- A number as text; a double always shows a point or an exponent. -/
def text : Number → Text
  | .natural n => Text.ofNat n
  | .negative n => '-' :: Text.ofNat n
  | .double neg b => (if neg then ['-'] else []) ++ style.write b

end Number

end EditorScaffold.Json
