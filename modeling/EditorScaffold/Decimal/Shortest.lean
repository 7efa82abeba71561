import EditorScaffold.Decimal.Binary64
import EditorScaffold.Text.Basic

/-! # Shortest decimal text

A double is written with the fewest digits that are read back as it, the nearest such decimal. `digits`
finds them on the grids of one, two, … seventeen digits: on each grid only the two neighbours of the
number can be nearest. `Notation` says where the digits are written out and where with an exponent. -/

namespace EditorScaffold

namespace Binary64

/-! ### The decimals that are read back -/

/-- The fraction `n · 2 ^ e` over `10 ^ k`, as numerator and denominator. -/
def overPower (n : Nat) (e k : Int) : Nat × Nat :=
  (n * Nat.pow 2 e.toNat * Nat.pow 10 (-k).toNat, Nat.pow 2 (-e).toNat * Nat.pow 10 k.toNat)

/-- Whether `d · 10 ^ k` rounds to the magnitude: it lies between the midpoints to the two neighbours, the
midpoints included if the mantissa is even. -/
def readsBack (b : Binary64) (d : Nat) (k : Int) : Bool :=
  let lower := if b.mantissa = Nat.pow 2 52 ∧ -1074 < b.exponent then 4 * b.mantissa - 1 else 4 * b.mantissa - 2
  let (ln, ld) := overPower lower (b.exponent - 2) k
  let (un, ud) := overPower (4 * b.mantissa + 2) (b.exponent - 2) k
  if b.mantissa % 2 = 0 then ln ≤ d * ld && d * ud ≤ un else ln < d * ld && d * ud < un

/-- The point position of a decimal digit string: the least `p` up to `fuel` steps above `p` with the
magnitude below `10 ^ p`. -/
def pointFrom (b : Binary64) : Nat → Int → Int
  | 0, p => p
  | fuel + 1, p =>
    let (n, d) := overPower b.mantissa b.exponent p
    if n < d then p else pointFrom b fuel (p + 1)

/-- The `p` with the magnitude in `[10 ^ (p - 1), 10 ^ p)`. -/
def point (b : Binary64) : Int :=
  let top : Int := b.mantissa.log2 + b.exponent
  pointFrom b 4 (top * 30103 / 100000 - 1)

/-- The decimal `d · 10 ^ k` on the grid of `n` digits that is read back and nearest, if one is. -/
def onGrid (b : Binary64) (n : Nat) : Option (Nat × Int) :=
  let k := point b - n
  let (num, den) := overPower b.mantissa b.exponent k
  let d := num / den
  let r := 2 * (num % den)
  match readsBack b d k, readsBack b (d + 1) k with
  | true, true => if r < den ∨ (r = den ∧ d % 2 = 0) then some (d, k) else some (d + 1, k)
  | true, false => some (d, k)
  | false, true => some (d + 1, k)
  | false, false => none

/-- The shortest digits of a magnitude that is not zero, and the power of ten of the last one. -/
def digits (b : Binary64) : Nat × Int :=
  ((List.range 17).findSome? fun n => onGrid b (n + 1)).getD (0, 0)

/-- The digits without the zeros at the end. -/
def stripZeros : List Char → Nat → List Char × Nat
  | '0' :: ds, n => stripZeros ds (n + 1)
  | ds, n => (ds.reverse, n)

end Binary64

/-! ### Where an exponent is written -/

/-- How numbers are written: positionally while the point falls from `lowest` to `highest` places after
the first digit's, and with a signed exponent otherwise. -/
structure DecimalStyle where
  lowest : Int
  highest : Int

namespace DecimalStyle

/-- A signed exponent. -/
def exponentText (e : Int) : Text :=
  if 0 ≤ e then 'e' :: '+' :: Text.ofNat e.natAbs else 'e' :: '-' :: Text.ofNat e.natAbs

/-- The digits `ds` with the point after `p` of them; a fraction of zero is written. -/
def place (style : DecimalStyle) (ds : Text) (p : Int) : Text :=
  if p < style.lowest ∨ style.highest < p then
    match ds with
    | [] => []
    | [d] => d :: exponentText (p - 1)
    | d :: more => d :: '.' :: more ++ exponentText (p - 1)
  else if p ≤ 0 then "0.".toList ++ List.replicate (-p).toNat '0' ++ ds
  else if ds.length ≤ p.toNat then
    ds ++ List.replicate (p.toNat - ds.length) '0' ++ ".0".toList
  else ds.take p.toNat ++ '.' :: ds.drop p.toNat

/-- A magnitude as text. -/
def write (style : DecimalStyle) (b : Binary64) : Text :=
  if b.mantissa = 0 then "0.0".toList
  else
    let (d, k) := b.digits
    let (ds, zeros) := Binary64.stripZeros (Text.ofNat d).reverse 0
    style.place ds (ds.length + zeros + k)

end DecimalStyle

end EditorScaffold
