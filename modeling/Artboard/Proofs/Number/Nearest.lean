import Artboard.Proofs.Number.Magnitude
import Mathlib.Algebra.Order.Field.Basic
import Mathlib.Algebra.Order.Field.Rat
import Mathlib.Algebra.Group.Int.Even
import Mathlib.Tactic.FieldSimp
import Mathlib.Tactic.Linarith
import Mathlib.Tactic.NormNum
import Mathlib.Tactic.Ring

/-!
# Rounding to the nearest

A rational number has one nearest integer if a half goes to the even neighbour (`IsNearest.unique`), and a larger
number has no smaller one (`IsNearest.mono`).  It is what a quotient is rounded to (`isNearest_roundDiv`).  Rounding to
53 bits is not so exact, but what is rounded differs from the result by no more than its `2 ^ 53`th part
(`roundUnits_error`).  The whole numbers that have a nearest double are those below half a step from the next power of
two (`roundUnits_lt_unitsLimit`).
-/

namespace Artboard

/-! ## 1. The nearest integer -/

/-- **The integer nearest to a number**, the even one of two that are equally near. -/
structure IsNearest (x : ℚ) (n : ℤ) : Prop where
  near : |x - n| ≤ 1 / 2
  even : |x - n| = 1 / 2 → Even n

namespace IsNearest

variable {x y : ℚ} {m n : ℤ}

/-- **Rounding keeps the order.** -/
theorem mono (hx : IsNearest x m) (hy : IsNearest y n) (le : x ≤ y) : m ≤ n := by
  by_contra less
  have next : (n : ℚ) + 1 ≤ m := by exact_mod_cast not_le.mp less
  have above := (abs_le.mp hx.near).1
  have below := (abs_le.mp hy.near).2
  -- both are halves between the same two integers, of which only one is even
  have tie : x - m = -(1 / 2) := by linarith
  have tie' : y - n = 1 / 2 := by linarith
  have succ : m = n + 1 := by
    have : (m : ℚ) = n + 1 := by linarith
    exact_mod_cast this
  have even := hx.even (by rw [tie]; norm_num)
  have even' := hy.even (by rw [tie']; norm_num)
  rw [succ] at even
  exact (Int.even_add_one.mp even) even'

theorem unique (hm : IsNearest x m) (hn : IsNearest x n) : m = n :=
  le_antisymm (hm.mono hn le_rfl) (hn.mono hm le_rfl)

theorem neg (h : IsNearest x n) : IsNearest (-x) (-n : ℤ) := by
  have same : |-x - ((-n : ℤ) : ℚ)| = |x - n| := by
    rw [Int.cast_neg, ← abs_neg]
    congr 1
    ring
  exact ⟨same ▸ h.near, fun tie => (h.even (same ▸ tie)).neg⟩

theorem of_lt (h : |x - n| < 1 / 2) : IsNearest x n := ⟨h.le, fun tie => absurd tie h.ne⟩

end IsNearest

/-- The exact quotient of a rounded one. -/
theorem roundDiv_cases (num : Nat) {den : Nat} (h : 0 < den) :
    ∃ rest : Nat, num = num / den * den + rest ∧ rest < den ∧
      (roundDiv num den = num / den ∧ (2 * rest < den ∨ 2 * rest = den ∧ num / den % 2 = 0) ∨
        roundDiv num den = num / den + 1 ∧ (den < 2 * rest ∨ 2 * rest = den ∧ num / den % 2 = 1)) := by
  refine ⟨num % den, (Nat.div_add_mod' num den).symm, Nat.mod_lt _ h, ?_⟩
  unfold roundDiv
  dsimp only
  split
  · rename_i low
    exact .inl ⟨rfl, .inl low⟩
  · split
    · rename_i high
      exact .inr ⟨rfl, .inl high⟩
    · split
      · rename_i even
        exact .inl ⟨rfl, .inr ⟨by omega, even⟩⟩
      · rename_i odd
        exact .inr ⟨rfl, .inr ⟨by omega, by omega⟩⟩

/-- A number is nearest to the integer below or above it by whether twice the part behind the point is less than one. -/
theorem isNearest_add_half {q m : ℕ} {twice : ℚ} (nonneg : 0 ≤ twice) (top : twice < 2)
    (cases : m = q ∧ (twice < 1 ∨ twice = 1 ∧ q % 2 = 0) ∨ m = q + 1 ∧ (1 < twice ∨ twice = 1 ∧ q % 2 = 1)) :
    IsNearest (q + twice / 2) (m : ℕ) := by
  rcases cases with ⟨rfl, low | ⟨tie, even⟩⟩ | ⟨rfl, high | ⟨tie, odd⟩⟩
  · refine .of_lt (abs_lt.mpr ⟨?_, ?_⟩) <;> push_cast <;> linarith
  · refine ⟨abs_le.mpr ⟨?_, ?_⟩, fun _ => Int.even_iff.mpr (by omega)⟩ <;> push_cast <;> linarith
  · refine .of_lt (abs_lt.mpr ⟨?_, ?_⟩) <;> push_cast <;> linarith
  · refine ⟨abs_le.mpr ⟨?_, ?_⟩, fun _ => Int.even_iff.mpr (by omega)⟩ <;> push_cast <;> linarith

/-- **A quotient is rounded to the integer nearest to it.** -/
theorem isNearest_roundDiv (num : Nat) {den : Nat} (h : 0 < den) :
    IsNearest ((num : ℚ) / den) (roundDiv num den : ℕ) := by
  obtain ⟨rest, whole, less, cases⟩ := roundDiv_cases num h
  have positive : (0 : ℚ) < den := by exact_mod_cast h
  -- twice the part that is left over is compared with one
  have quotient : (num : ℚ) / den = (num / den : ℕ) + (2 * rest : ℕ) / den / 2 := by
    have whole : (num : ℚ) = (num / den : ℕ) * den + rest := by exact_mod_cast whole
    rw [div_eq_iff positive.ne']
    push_cast
    field_simp
    linarith
  have nonneg : (0 : ℚ) ≤ (2 * rest : ℕ) / den := by positivity
  have top : ((2 * rest : ℕ) / den : ℚ) < 2 := by
    rw [div_lt_iff₀ positive]
    exact_mod_cast Nat.mul_lt_mul_of_pos_left less (by decide)
  have below : ((2 * rest : ℕ) / den : ℚ) < 1 ↔ 2 * rest < den := by rw [div_lt_one positive, Nat.cast_lt]
  have above : (1 : ℚ) < (2 * rest : ℕ) / den ↔ den < 2 * rest := by rw [one_lt_div positive, Nat.cast_lt]
  have half : ((2 * rest : ℕ) / den : ℚ) = 1 ↔ 2 * rest = den := by rw [div_eq_one_iff_eq positive.ne', Nat.cast_inj]
  rw [quotient]
  refine isNearest_add_half nonneg top ?_
  rwa [below, above, half]

/-! ## 2. Rounding to 53 bits -/

theorem le_roundDiv {num den n : Nat} (h : 0 < den) (le : n * den ≤ num) : n ≤ roundDiv num den := by
  obtain ⟨rest, -, -, ⟨down, -⟩ | ⟨up, -⟩⟩ := roundDiv_cases num h
  · exact down ▸ (Nat.le_div_iff_mul_le h).mpr le
  · exact up ▸ Nat.le_succ_of_le ((Nat.le_div_iff_mul_le h).mpr le)

/-- A rounded quotient is off by half of what it was divided by. -/
theorem distance_roundDiv (num : Nat) {den : Nat} (h : 0 < den) :
    2 * distance (roundDiv num den * den) num ≤ den := by
  obtain ⟨rest, whole, less, cases⟩ := roundDiv_cases num h
  have next : (num / den + 1) * den = num / den * den + den := Nat.succ_mul _ _
  unfold distance
  rcases cases with ⟨down, side⟩ | ⟨up, side⟩
  · rw [down]
    generalize num / den * den = low at whole
    omega
  · rw [up, next]
    generalize num / den * den = low at whole
    omega

/-- Where the grid of 53 bits is coarser than that of whole units, all bits are taken. -/
theorem roundUnits_split (num : Nat) {den : Nat} (h : 0 < den) : ∃ m s, roundUnits num den = m * 2 ^ s ∧
    m = roundDiv num (den * 2 ^ s) ∧ (0 < s → 2 ^ 52 ≤ m) := by
  refine ⟨_, (num / den).log2 - 52, rfl, rfl, fun coarse => ?_⟩
  have positive : num / den ≠ 0 := by
    intro none
    rw [none, Nat.log2_zero] at coarse
    omega
  generalize shift : (num / den).log2 - 52 = s at coarse
  have large : 2 ^ (52 + s) ≤ num / den := (Nat.le_log2 positive).mp (by omega)
  refine le_roundDiv (Nat.mul_pos h (Nat.two_pow_pos s)) ?_
  calc 2 ^ 52 * (den * 2 ^ s) = 2 ^ (52 + s) * den := by rw [Nat.pow_add]; ring
    _ ≤ num := (Nat.le_div_iff_mul_le h).mp large

/-- What has 53 bits before rounding has as many afterwards. -/
theorem le_roundUnits {num den : Nat} (h : 0 < den) (large : 2 ^ 52 * den ≤ num) : 2 ^ 52 ≤ roundUnits num den := by
  obtain ⟨m, s, split, rounded, all⟩ := roundUnits_split num h
  have bits : 2 ^ 52 ≤ m := by
    rcases Nat.eq_zero_or_pos s with rfl | coarse
    · rw [rounded, Nat.pow_zero, Nat.mul_one]
      exact le_roundDiv h large
    · exact all coarse
  rw [split]
  exact Nat.le_trans bits (Nat.le_mul_of_pos_right m (Nat.two_pow_pos s))

/-- **Rounding to 53 bits is off by no more than the `2 ^ 53`th part of the result.** -/
theorem roundUnits_error {num den : Nat} (h : 0 < den) (large : 2 ^ 52 ≤ roundUnits num den) :
    2 ^ 53 * distance (roundUnits num den * den) num ≤ roundUnits num den * den := by
  obtain ⟨m, s, split, rounded, all⟩ := roundUnits_split num h
  have bits : 2 ^ 52 ≤ m := by
    rcases Nat.eq_zero_or_pos s with rfl | coarse
    · rwa [split, Nat.pow_zero, Nat.mul_one] at large
    · exact all coarse
  have step := distance_roundDiv num (Nat.mul_pos h (Nat.two_pow_pos s))
  have units : roundUnits num den * den = m * (den * 2 ^ s) := by rw [split]; ring
  rw [← rounded] at step
  rw [units]
  generalize den * 2 ^ s = grid at step ⊢
  calc 2 ^ 53 * distance (m * grid) num = 2 ^ 52 * (2 * distance (m * grid) num) := by ring
    _ ≤ 2 ^ 52 * grid := Nat.mul_le_mul_left _ step
    _ ≤ m * grid := Nat.mul_le_mul_right _ bits

/-! ## 3. The largest whole numbers -/

/-- A quotient is rounded up to an even number from half below it on. -/
theorem roundDiv_lt_iff (num : Nat) {den m : Nat} (h : 0 < den) (even : m % 2 = 0) :
    roundDiv num den < m ↔ 2 * num < (2 * m - 1) * den := by
  obtain ⟨rest, whole, less, cases⟩ := roundDiv_cases num h
  generalize roundDiv num den = rounded at *
  generalize num / den = q at *
  have span : (2 * m - 1) * den = 2 * (m * den) - den := by rw [Nat.sub_mul, Nat.mul_assoc, Nat.one_mul]
  rw [whole, span]
  rcases Nat.lt_trichotomy (q + 1) m with below | rfl | above
  · have := Nat.mul_le_mul_right den (show q + 2 ≤ m from below)
    rw [Nat.add_mul] at this
    constructor <;> intro _ <;> omega
  · -- the number below an even one is odd
    rw [Nat.succ_mul q den]
    omega
  · have := Nat.mul_le_mul_right den (show m ≤ q by omega)
    constructor <;> intro _ <;> omega

/-- **A number is rounded up to the next power of two** from half a step below it on. -/
theorem roundUnits_lt_iff (n s : Nat) : roundUnits n 1 < 2 ^ 53 * 2 ^ s ↔ 2 * n < (2 ^ 54 - 1) * 2 ^ s := by
  rw [Number.roundUnits_one]
  generalize shift : n.log2 - 52 = t
  have positive : 0 < 2 ^ t := Nat.two_pow_pos t
  have top : n < 2 ^ 53 * 2 ^ t := by
    rw [← Nat.pow_add]
    exact Nat.lt_of_lt_of_le Nat.lt_log2_self (Nat.pow_le_pow_right (by decide) (by omega))
  have double {i j : Nat} (less : i < j) : 2 ^ i * 2 ≤ 2 ^ j := by
    rw [← Nat.pow_succ]
    exact Nat.pow_le_pow_right (by decide) less
  rcases Nat.lt_trichotomy t s with finer | rfl | coarser
  · -- both are below the power by a factor of two
    have rounded : roundDiv n (2 ^ t) * 2 ^ t ≤ 2 ^ 53 * 2 ^ t := Nat.mul_le_mul_right _ (roundDiv_le top.le)
    have := double finer
    constructor <;> intro _ <;> omega
  · rw [Nat.mul_lt_mul_right positive]
    exact roundDiv_lt_iff n positive (by decide)
  · have some : n ≠ 0 := by
      rintro rfl
      rw [Nat.log2_zero] at shift
      omega
    have large : 2 ^ 52 * 2 ^ t ≤ n := by
      rw [← Nat.pow_add]
      exact (Nat.le_log2 some).mp (by omega)
    have rounded : 2 ^ 52 * 2 ^ t ≤ roundDiv n (2 ^ t) * 2 ^ t := Nat.mul_le_mul_right _ (le_roundDiv positive large)
    have := double coarser
    constructor <;> intro _ <;> omega

/-- Below this, whole numbers are rounded to doubles. -/
def Binary64.wholeLimit : Nat := Nat.pow 2 1024 - Nat.pow 2 970

theorem roundUnits_lt_unitsLimit (n : Nat) :
    roundUnits (n * unitsPerOne) 1 < unitsLimit ↔ n < Binary64.wholeLimit := by
  have limit : unitsLimit = 2 ^ 53 * Nat.pow 2 971 * unitsPerOne := by decide +kernel
  have half : (2 ^ 54 - 1) * Nat.pow 2 971 = 2 * Binary64.wholeLimit := by decide +kernel
  -- the power stays as it is: written out it is too long
  generalize 971 = s at limit half
  rw [Nat.pow_eq] at limit half
  rw [limit, Number.roundUnits_units, Nat.mul_lt_mul_right unitsPerOne_pos, roundUnits_lt_iff, half,
    Nat.mul_lt_mul_left (by decide)]

/-- **The whole numbers that are not too large for a double.** -/
theorem Number.toDouble_int_iff (i : Int) : (∃ x, (int i).toDouble = .ok x) ↔ i.natAbs < Binary64.wholeLimit := by
  rw [← roundUnits_lt_unitsLimit]
  unfold toDouble Binary64.ofInt
  dsimp only
  generalize i.natAbs * unitsPerOne = num
  constructor
  · rintro ⟨x, read⟩
    by_contra above
    unfold Binary64.ofRatio at read
    rw [dif_neg above] at read
    cases read
  · intro below
    obtain ⟨fits, read⟩ := bounded_ofRatio (decide (i < 0)) below
    exact ⟨_, read⟩

end Artboard
