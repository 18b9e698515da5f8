/-!
# Binary64: double-precision numbers, exactly

A finite number is a sign and a whole number of *units*, where one unit is `2^-1074`, the distance
between the smallest numbers.  So every finite number is one natural number, equality is equality of
fields, and the operations are exact natural arithmetic followed by one rounding:

* `roundDiv` rounds a quotient to the nearest natural number, a half to the even neighbour;
* `roundUnits` rounds a quotient of units to one that 53 significant bits carry (`Fits`);
* `Binary64.ofRatio` puts the two together and turns what is too large into an infinity.

The two zeros differ in their sign, and there is one NaN.
-/

namespace Artboard

/-! ## 1. Rounding a quotient -/

/-- The natural number nearest to `num / den`; a half goes to the even neighbour. -/
def roundDiv (num den : Nat) : Nat :=
  let q := num / den
  let r := num % den
  if 2 * r < den then q
  else if den < 2 * r then q + 1
  else if q % 2 = 0 then q
  else q + 1

theorem roundDiv_le_succ (num den : Nat) : roundDiv num den ≤ num / den + 1 := by
  simp only [roundDiv]
  repeat' split
  all_goals omega

/-- A quotient without remainder is its own rounding. -/
theorem roundDiv_mul_right (n den : Nat) (h : 0 < den) : roundDiv (n * den) den = n := by
  simp [roundDiv, Nat.mul_div_cancel _ h, h]

/-! ## 2. The grid of 53 significant bits -/

/-- One, in units. -/
def unitsPerOne : Nat := Nat.pow 2 1074

/-- The first power of two that is too large, in units. -/
def unitsLimit : Nat := Nat.pow 2 2098

/-- A number of units that a finite number can have. -/
def Fits (units : Nat) : Prop :=
  (∃ m s, m ≤ Nat.pow 2 53 ∧ units = m * Nat.pow 2 s) ∧ units < unitsLimit

/-- The quotient rounded to 53 significant bits, or to whole units where it has fewer. -/
def roundUnits (num den : Nat) : Nat :=
  let s := (num / den).log2 - 52
  roundDiv num (den * Nat.pow 2 s) * Nat.pow 2 s

theorem roundUnits_grid (num den : Nat) :
    ∃ m s, m ≤ Nat.pow 2 53 ∧ roundUnits num den = m * Nat.pow 2 s := by
  refine ⟨_, _, ?_, rfl⟩
  refine Nat.le_trans (roundDiv_le_succ _ _) ?_
  have hlt : num / den < 2 ^ ((num / den).log2 + 1) := Nat.lt_log2_self
  have hle : 2 ^ ((num / den).log2 + 1) ≤ 2 ^ (53 + ((num / den).log2 - 52)) :=
    Nat.pow_le_pow_right (by decide) (by omega)
  have h : num / (den * 2 ^ ((num / den).log2 - 52)) < 2 ^ 53 := by
    rw [← Nat.div_div_eq_div_mul, Nat.div_lt_iff_lt_mul (Nat.two_pow_pos _), ← Nat.pow_add]
    omega
  show num / (den * 2 ^ ((num / den).log2 - 52)) + 1 ≤ 2 ^ 53
  omega

/-! ## 3. The type -/

/-- A double-precision number. -/
inductive Binary64 where
  | nan
  | infinity (negative : Bool)
  | finite (negative : Bool) (units : Nat) (fits : Fits units)
  deriving DecidableEq

namespace Binary64

/-- The number nearest to `num / den` units, with the given sign. -/
def ofRatio (negative : Bool) (num den : Nat) : Binary64 :=
  if h : roundUnits num den < unitsLimit then
    .finite negative (roundUnits num den) ⟨roundUnits_grid num den, h⟩
  else .infinity negative

/-- The zero of the given sign. -/
def zero (negative : Bool) : Binary64 := ofRatio negative 0 1

/-- The number nearest to an integer. -/
def ofInt (i : Int) : Binary64 := ofRatio (decide (i < 0)) (i.natAbs * unitsPerOne) 1

instance : Inhabited Binary64 := ⟨zero false⟩

/-- Neither NaN nor an infinity. -/
def isFinite : Binary64 → Bool
  | .finite .. => true
  | _ => false

/-- The units of a finite number, with their sign; the two zeros agree. -/
def signedUnits (negative : Bool) (units : Nat) : Int :=
  if negative then -(units : Int) else units

/-- Zero of either sign. -/
def isZero : Binary64 → Bool
  | .finite _ u _ => u == 0
  | _ => false

/-! ## 4. Arithmetic -/

/-- The number with the other sign. -/
def neg : Binary64 → Binary64
  | .nan => .nan
  | .infinity s => .infinity (!s)
  | .finite s u h => .finite (!s) u h

/-- The number without its sign. -/
def abs : Binary64 → Binary64
  | .nan => .nan
  | .infinity _ => .infinity false
  | .finite _ u h => .finite false u h

/-- The exact sum, rounded; a sum of nothing is negative only if both zeros are. -/
def add : Binary64 → Binary64 → Binary64
  | .nan, _ => .nan
  | _, .nan => .nan
  | .infinity s, .infinity t => if s = t then .infinity s else .nan
  | .infinity s, .finite .. => .infinity s
  | .finite .., .infinity t => .infinity t
  | .finite s u _, .finite t v _ =>
    let sum := signedUnits s u + signedUnits t v
    if sum = 0 then zero (s && t) else ofRatio (decide (sum < 0)) sum.natAbs 1

/-- The exact difference, rounded. -/
def sub (a b : Binary64) : Binary64 := a.add b.neg

/-- The exact product, rounded; zero times infinity is no number. -/
def mul : Binary64 → Binary64 → Binary64
  | .nan, _ => .nan
  | _, .nan => .nan
  | .infinity s, .infinity t => .infinity (s != t)
  | .infinity s, .finite t u _ => if u = 0 then .nan else .infinity (s != t)
  | .finite s u _, .infinity t => if u = 0 then .nan else .infinity (s != t)
  | .finite s u _, .finite t v _ => ofRatio (s != t) (u * v) unitsPerOne

/-- The exact quotient by a positive whole number, rounded. -/
def divNat (a : Binary64) (n : Nat) : Binary64 :=
  match a with
  | .nan => .nan
  | .infinity s => .infinity s
  | .finite s u _ => ofRatio s u n

/-- The nearest integer, a half to the even neighbour; NaN and the infinities have none. -/
def roundToInt? : Binary64 → Option Int
  | .finite s u _ => some (signedUnits s (roundDiv u unitsPerOne))
  | _ => none

/-- The integer part, toward zero; NaN and the infinities have none. -/
def truncate? : Binary64 → Option Int
  | .finite s u _ => some (signedUnits s (u / unitsPerOne))
  | _ => none

end Binary64

end Artboard
