import Artboard.Fault
import Artboard.Number.Numeral

/-!
# Numbers of a design

A design holds whole numbers of any size and doubles, and the difference is kept: whole numbers among
themselves are computed exactly, and a whole number beside a double is rounded to a double first, which
fails when it is too large (`Number.toDouble`).  Comparisons are exact in every case, and NaN compares
with nothing.

A whole number has at most 4300 digits where it is read or written (`Number.maxDigits`); in between it may
have more.  `Binary64.format` is how a number is written in a style: an integer if the value is within a
millionth of one, and otherwise the value rounded to some decimal places.
-/

namespace Artboard

/-- A number that came out of a whole one, which is too large where it is an infinity. -/
def Binary64.bounded : Binary64 → Except Fault Binary64
  | .infinity _ => .error .tooLarge
  | x => .ok x

/-- A whole number or a double. -/
inductive Number where
  | int (value : Int)
  | real (value : Binary64)
  deriving DecidableEq

namespace Number

instance : Inhabited Number := ⟨int 0⟩

/-! ## 1. Doubles from numbers -/

/-- The double nearest to a number; a whole number can be too large for one. -/
def toDouble : Number → Except Fault Binary64
  | int i => (Binary64.ofInt i).bounded
  | real x => .ok x

/-- Neither NaN nor an infinity. -/
def isFinite : Number → Bool
  | int _ => true
  | real x => x.isFinite

/-- Zero of either kind and sign. -/
def isZero : Number → Bool
  | int i => i == 0
  | real x => x.isZero

/-- The text of a number. -/
def text : Number → String
  | int i => toString i
  | real x => x.text

/-- The most digits of a whole number that is read or written. -/
def maxDigits : Nat := 4300

/-- A whole number written, which can have too many digits. -/
def writeInt (i : Int) : Except Fault String :=
  if i.natAbs < Nat.pow 10 maxDigits then .ok (toString i) else .error .tooLong

/-! ## 2. Arithmetic -/

/-- Whole numbers by one operation, and all others by another after rounding to doubles. -/
def combine (onInts : Int → Int → Int) (onDoubles : Binary64 → Binary64 → Binary64) :
    Number → Number → Except Fault Number
  | int a, int b => .ok (int (onInts a b))
  | a, b => do
    let x ← a.toDouble
    let y ← b.toDouble
    return real (onDoubles x y)

/-- The sum. -/
def add : Number → Number → Except Fault Number := combine (· + ·) Binary64.add

/-- The difference. -/
def sub : Number → Number → Except Fault Number := combine (· - ·) Binary64.sub

/-- The product. -/
def mul : Number → Number → Except Fault Number := combine (· * ·) Binary64.mul

/-- The number with the other sign; the whole zero has none. -/
def neg : Number → Number
  | int i => int (-i)
  | real x => real x.neg

/-- The number without its sign. -/
def abs : Number → Number
  | int i => int i.natAbs
  | real x => real x.abs

/-- The quotient by a positive whole number, as a double: the exact quotient of a whole number is
rounded once. -/
def divNat (a : Number) (n : Nat) : Except Fault Binary64 :=
  match a with
  | int i => (Binary64.ofRatio (decide (i < 0)) (i.natAbs * unitsPerOne) n).bounded
  | real x => .ok (x.divNat n)

/-- The nearest integer, a half to the even neighbour. -/
def roundToInt : Number → Except Fault Int
  | int i => .ok i
  | real .nan => .error .notANumber
  | real x =>
    match x.roundToInt? with
    | some i => .ok i
    | none => .error .tooLarge

/-! ## 3. Comparison -/

/-- Where a number lies on the line: at a whole number of units, or beyond all of them. -/
inductive Place where
  | low
  | units (count : Int)
  | high
  deriving DecidableEq

/-- The place of a number; NaN has none. -/
def place? : Number → Option Place
  | int i => some (.units (i * unitsPerOne))
  | real .nan => none
  | real (.infinity s) => some (if s then .low else .high)
  | real (.finite s u _) => some (.units (Binary64.signedUnits s u))

/-- Strictly before, on the line. -/
def Place.before : Place → Place → Bool
  | .units a, .units b => decide (a < b)
  | .low, .low => false
  | .low, _ => true
  | .units _, .high => true
  | _, _ => false

/-- Strictly less; never with NaN. -/
def lt (a b : Number) : Bool :=
  match a.place?, b.place? with
  | some p, some q => p.before q
  | _, _ => false

/-- The smaller of two, the first unless the second is strictly less. -/
def min (a b : Number) : Number := if b.lt a then b else a

end Number

/-! ## 4. Numbers in styles -/

/-- A millionth, in units of the double nearest to it. -/
def snapUnits : Nat := roundUnits unitsPerOne 1000000

/-- The distance between two natural numbers. -/
def distance (a b : Nat) : Nat := (a - b) + (b - a)

namespace Binary64

/-- An integer if the value is less than a millionth from one, and otherwise the value rounded to
`places` decimal places with the fewest digits that read back. -/
def format (places : Int) : Binary64 → Except Fault String
  | .nan => .error .notANumber
  | .infinity _ => .error .tooLarge
  | x@(.finite s u _) =>
    let nearest := roundDiv u unitsPerOne
    if distance u (nearest * unitsPerOne) < snapUnits then .ok (toString (signedUnits s nearest))
    else
      match x.roundTo places with
      | .infinity _ => .error .tooLarge
      | r => .ok r.text

end Binary64

namespace Number

/-- A number in a style: an integer or a few decimal places. -/
def format (places : Int) (n : Number) : Except Fault String := do (← n.toDouble).format places

/-- A length in pixels. -/
def px (n : Number) : Except Fault String := return (← n.format 2) ++ "px"

end Number

end Artboard
