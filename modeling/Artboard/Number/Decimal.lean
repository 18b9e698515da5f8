import Artboard.Number.Binary64

/-!
# Decimal numbers: digits that read back, and their notation

A `Decimal` is a natural coefficient times a power of ten.

* `Binary64.ofDecimal` is the double nearest to a decimal.
* `Binary64.roundTo` rounds the exact value of a double to a number of decimal places.
* `shortest` selects the fewest digits that read back as a given double: of the grids of one, two, …
  significant digits the first that has a neighbour of the value which reads back.
* `Decimal.text` lays the digits out, and `Binary64.text` adds the sign and the special values.
-/

namespace Artboard

/-- `coefficient * 10 ^ exponent`. -/
structure Decimal where
  coefficient : Nat
  exponent : Int
  deriving DecidableEq, Repr

/-- The digits of a natural number in base ten. -/
def digitsOf (n : Nat) : List Char := Nat.toDigits 10 n

/-! ## 1. From decimal to binary -/

namespace Binary64

/-- The double nearest to a decimal.  A decimal of `10 ^ 310` or more is infinite and one below
`10 ^ -330` is zero, so no power of ten beyond these is ever computed. -/
def ofDecimal (negative : Bool) (d : Decimal) : Binary64 :=
  let top := (digitsOf d.coefficient).length + d.exponent
  if d.coefficient = 0 then zero negative
  else if 311 < top then .infinity negative
  else if top < -330 then zero negative
  else ofRatio negative (d.coefficient * unitsPerOne * Nat.pow 10 d.exponent.toNat)
    (Nat.pow 10 (-d.exponent).toNat)

/-- The exact value rounded to `places` decimal places, a half to the even neighbour, and then to the
nearest double, which is infinite only when `places` is negative.  Beyond 400 places either way nothing
changes any more. -/
def roundTo (places : Int) : Binary64 → Binary64
  | .finite s u _ =>
    let p := max (-400) (min 400 places)
    ofDecimal s ⟨roundDiv (u * Nat.pow 10 p.toNat) (unitsPerOne * Nat.pow 10 (-p).toNat), -p⟩
  | x => x

end Binary64

/-! ## 2. The fewest digits -/

/-- Every number of units is exactly this many times `10 ^ -1074`. -/
def exactCoefficient (units : Nat) : Nat := units * Nat.pow 5 1074

/-- The decimal `c * 10 ^ (drop - 1074)` reads back as `units`. -/
def readsBack (units drop c : Nat) : Bool :=
  roundUnits (c * Nat.pow 10 drop) (Nat.pow 5 1074) == units

/-- The neighbour to take of the two that a value has on a grid, by which of them read back: of both the
nearer, and at equal distance the even one.  The value lies `rest` above the lower one. -/
def nearerHit? (lowReads highReads : Bool) (low rest grid : Nat) : Option Nat :=
  match lowReads, highReads with
  | true, true =>
    some (if 2 * rest < grid then low
      else if grid < 2 * rest then low + 1
      else if low % 2 = 0 then low
      else low + 1)
  | true, false => some low
  | false, true => some (low + 1)
  | false, false => none

/-- The neighbour of the exact value on the grid `10 ^ (drop - 1074)` that reads back, if one does. -/
def gridHit? (units drop : Nat) : Option Nat :=
  let exact := exactCoefficient units
  let grid := Nat.pow 10 drop
  let low := exact / grid
  nearerHit? (readsBack units drop low) (readsBack units drop (low + 1)) low (exact % grid) grid

/-- The fewest digits that read back as `units`: the first grid with a hit among those of one to
seventeen significant digits, and the exact value if none has. -/
def shortest (units : Nat) : Decimal :=
  let exact := exactCoefficient units
  let length := (digitsOf exact).length
  let found := (List.range 17).findSome? fun i =>
    (gridHit? units (length - (i + 1))).map fun c => (⟨c, (length - (i + 1) : Nat) - 1074⟩ : Decimal)
  found.getD ⟨exact, -1074⟩

/-! ## 3. Notation -/

namespace Decimal

/-- The significant digits, without zeros at the end. -/
def significant (d : Decimal) : List Char :=
  ((digitsOf d.coefficient).reverse.dropWhile (· == '0')).reverse

/-- The power of ten at which the point stands in front of all digits. -/
def point (d : Decimal) : Int := (digitsOf d.coefficient).length + d.exponent

/-- Digits with the point at a place: before, inside or after them. -/
def positional (digits : List Char) (point : Int) : List Char :=
  if point ≤ 0 then '0' :: '.' :: (List.replicate (-point).toNat '0' ++ digits)
  else if digits.length ≤ point.toNat then
    digits ++ List.replicate (point.toNat - digits.length) '0' ++ ['.', '0']
  else digits.take point.toNat ++ '.' :: digits.drop point.toNat

/-- One digit before the point, and the power of ten with its sign and at least two digits. -/
def scientific (digits : List Char) (power : Int) : List Char :=
  let magnitude := digitsOf power.natAbs
  let padded := if magnitude.length < 2 then '0' :: magnitude else magnitude
  let tail := digits.drop 1
  digits.take 1 ++ (if tail.isEmpty then [] else '.' :: tail) ++
    'e' :: (if power < 0 then '-' else '+') :: padded

/-- A positive decimal is written positionally while the power of ten of its first digit is at least
`-4` and below `16`. -/
def text (d : Decimal) : List Char :=
  let power := d.point - 1
  if -4 ≤ power ∧ power < 16 then positional d.significant d.point
  else scientific d.significant power

end Decimal

/-- The text of a double: the fewest digits that read back, with a sign in front. -/
def Binary64.text : Binary64 → String
  | .nan => "nan"
  | .infinity s => if s then "-inf" else "inf"
  | .finite s u _ =>
    let digits := if u = 0 then ['0', '.', '0'] else (shortest u).text
    String.ofList (if s then '-' :: digits else digits)

end Artboard
