/-! # Double precision numbers

A finite double is a magnitude `mantissa · 2 ^ exponent` beside a sign. `round` takes a fraction to the
nearest magnitude, a tie to the even mantissa, and has no answer beyond the largest one. A decimal numeral
is read in two roundings: its leading digits as a whole number, then that number times or over a power of
ten; so the result is not always the nearest double. -/

namespace EditorScaffold

/-- A magnitude `mantissa · 2 ^ exponent` of a finite double. -/
structure Binary64 where
  mantissa : Nat
  exponent : Int
deriving DecidableEq, Repr

namespace Binary64

/-- The magnitude zero. -/
def zero : Binary64 := ⟨0, -1074⟩

/-! ### Rounding -/

/-- The nearest whole number to a fraction, a tie to the even one. -/
def roundDiv (num den : Nat) : Nat :=
  let q := num / den
  let r := 2 * (num % den)
  if r < den ∨ (r = den ∧ q % 2 = 0) then q else q + 1

/-- The fraction `num / den / 2 ^ e`. -/
def descale (num den : Nat) (e : Int) : Nat × Nat :=
  (num * Nat.pow 2 (-e).toNat, den * Nat.pow 2 e.toNat)

/-- The nearest magnitude to a fraction, a tie to the even mantissa; none beyond the largest. -/
def round (num den : Nat) : Option Binary64 :=
  if num = 0 then some zero
  else
    let e : Int := num.log2 - den.log2
    let low := max (e - 53) (-1074)
    let (n, d) := descale num den low
    let e := if n / d < Nat.pow 2 53 then low else low + 1
    let (n, d) := descale num den e
    let m := roundDiv n d
    let (m, e) := if m = Nat.pow 2 53 then (Nat.pow 2 52, e + 1) else (m, e)
    if 971 < e then none else some ⟨m, e⟩

/-! ### Products and quotients -/

/-- The product, rounded. -/
def mul (a b : Binary64) : Option Binary64 :=
  let e := a.exponent + b.exponent
  round (a.mantissa * b.mantissa * Nat.pow 2 e.toNat) (Nat.pow 2 (-e).toNat)

/-- The quotient, rounded; zero over zero does not arise. -/
def div (a b : Binary64) : Option Binary64 :=
  let e := a.exponent - b.exponent
  round (a.mantissa * Nat.pow 2 e.toNat) (b.mantissa * Nat.pow 2 (-e).toNat)

/-- The power of ten, rounded. -/
def powerOfTen (k : Nat) : Option Binary64 := round (Nat.pow 10 k) 1

/-! ### Decimal scaling -/

/-- The greatest power of ten that is a double. -/
def maxPower : Nat := 308

/-- A magnitude times `10 ^ k`, with at most `steps` quotients by the greatest power on the way. -/
def scaleWithin : Nat → Binary64 → Int → Option Binary64
  | 0, _, _ => none
  | steps + 1, f, k =>
    if k.natAbs ≤ maxPower then
      (powerOfTen k.natAbs).bind fun p => if 0 ≤ k then f.mul p else f.div p
    else if f.mantissa = 0 then some f
    else if 0 ≤ k then none
    else ((powerOfTen maxPower).bind f.div).bind fun g => scaleWithin steps g (k + maxPower)

/-- A magnitude times `10 ^ k`: one product or quotient if the power of ten is a double, and before that
as many quotients by the greatest one as are needed. -/
def scaleTen (f : Binary64) (k : Int) : Option Binary64 := scaleWithin (k.natAbs + 1) f k

end Binary64

end EditorScaffold
