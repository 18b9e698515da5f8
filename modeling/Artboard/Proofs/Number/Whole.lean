import Artboard.Proofs.Number.Notation
import Artboard.Proofs.Run
import Mathlib.Algebra.Group.Nat.Defs

/-!
# Whole numbers

Whole numbers are compared exactly, but they are written through doubles: what a style says is the number
rounded to 53 significant bits (`Number.written`), which is the number itself below `2 ^ 53`
(`Number.written_eq`); such a number can always be written (`Number.format_small`).  A length in pixels reads
back (`Number.pixels?_toString`).
-/

namespace Artboard

theorem unitsPerOne_pos : 0 < unitsPerOne := by
  unfold unitsPerOne
  generalize 1074 = n
  exact Nat.two_pow_pos n

namespace Number

/-! ## 1. Comparison -/

/-- Comparing whole numbers as places on the line is comparing them. -/
theorem lt_int (a b : Int) : (int a).lt (.int b) = decide (a < b) := by
  have positive : (0 : Int) < unitsPerOne := Int.natCast_pos.mpr unitsPerOne_pos
  unfold lt
  dsimp only [place?, Place.before]
  exact decide_eq_decide.mpr (Int.mul_lt_mul_right positive)

theorem min_int (a b : Int) : (int a).min (.int b) = .int (Min.min a b) := by
  unfold Number.min
  rw [lt_int, Int.min_def]
  split
  · rename_i h
    have hlt : b < a := of_decide_eq_true h
    rw [if_neg (by omega)]
  · rename_i h
    have hle : ¬b < a := fun hlt => h (decide_eq_true hlt)
    rw [if_pos (by omega)]

/-! ## 2. Writing -/

/-- What is written for a whole number: the number rounded to 53 significant bits. -/
def written (i : Int) : Int := Binary64.signedUnits (decide (i < 0)) (roundUnits i.natAbs 1)

theorem roundDiv_one (n : Nat) : roundDiv n 1 = n := by
  have := roundDiv_mul_right n 1 Nat.one_pos
  rwa [Nat.mul_one] at this

/-- Rounding a quotient does not see a common factor. -/
theorem roundDiv_mul_mul (n d k : Nat) (hk : 0 < k) : roundDiv (n * k) (d * k) = roundDiv n d := by
  have quotient : n * k / (d * k) = n / d := Nat.mul_div_mul_right n d hk
  have rest : n * k % (d * k) = n % d * k := Nat.mul_mod_mul_right k n d
  have below : 2 * (n % d * k) < d * k ↔ 2 * (n % d) < d := by
    rw [← Nat.mul_assoc]
    exact Nat.mul_lt_mul_right hk
  have above : d * k < 2 * (n % d * k) ↔ d < 2 * (n % d) := by
    rw [← Nat.mul_assoc]
    exact Nat.mul_lt_mul_right hk
  unfold roundDiv
  simp only [quotient, rest, below, above]

theorem roundUnits_one (n : Nat) : roundUnits n 1 = roundDiv n (2 ^ (n.log2 - 52)) * 2 ^ (n.log2 - 52) := by
  simp [roundUnits]

theorem log2_mul_two_pow {n : Nat} (hn : 0 < n) (k : Nat) : (n * 2 ^ k).log2 = n.log2 + k := by
  have positive : 0 < 2 ^ k := Nat.two_pow_pos k
  have low : 2 ^ n.log2 ≤ n := Nat.log2_self_le hn.ne'
  have high : n < 2 ^ (n.log2 + 1) := Nat.lt_log2_self
  rw [Nat.log2_eq_iff (Nat.mul_pos hn positive).ne']
  constructor
  · rw [Nat.pow_add]
    exact Nat.mul_le_mul_right _ low
  · have shift : n.log2 + k + 1 = n.log2 + 1 + k := by omega
    rw [shift, Nat.pow_add]
    exact Nat.mul_lt_mul_of_pos_right high positive

/-- A number with few bits is not rounded. -/
theorem roundUnits_of_log2_le {n : Nat} (h : n.log2 ≤ 52) : roundUnits n 1 = n := by
  have shift : n.log2 - 52 = 0 := by omega
  rw [roundUnits_one, shift, Nat.pow_zero, roundDiv_one, Nat.mul_one]

/-- Rounding a whole number of ones is rounding the whole number. -/
theorem roundUnits_ones (n k : Nat) : roundUnits (n * 2 ^ k) 1 = roundUnits n 1 * 2 ^ k := by
  rcases Nat.eq_zero_or_pos n with rfl | hn
  · rw [Nat.zero_mul, roundUnits_zero, Nat.zero_mul]
  · rw [roundUnits_one, log2_mul_two_pow hn]
    by_cases few : n.log2 ≤ 52
    · -- the bits that are dropped are all from the factor
      have split : 2 ^ k = 2 ^ (k - (n.log2 + k - 52)) * 2 ^ (n.log2 + k - 52) := by
        rw [← Nat.pow_add]
        congr 1
        omega
      rw [roundUnits_of_log2_le few]
      generalize n.log2 + k - 52 = s at split ⊢
      rw [split, ← Nat.mul_assoc, roundDiv_mul_right _ _ (Nat.two_pow_pos s)]
    · have shift : n.log2 + k - 52 = n.log2 - 52 + k := by omega
      rw [roundUnits_one, shift, Nat.pow_add, roundDiv_mul_mul _ _ _ (Nat.two_pow_pos k), Nat.mul_assoc]

theorem log2_le {n : Nat} (h : n < 2 ^ 53) : n.log2 ≤ 52 := by
  rcases Nat.eq_zero_or_pos n with rfl | hp
  · rw [Nat.log2_zero]
    omega
  · exact Nat.lt_succ_iff.mp ((Nat.log2_lt hp.ne').mpr h)

/-- A whole number of at most 53 bits is written as it is. -/
theorem written_eq {i : Int} (h : i.natAbs < 2 ^ 53) : written i = i := by
  unfold written Binary64.signedUnits
  rw [roundUnits_of_log2_le (log2_le h)]
  split
  · rename_i hneg
    have : i < 0 := of_decide_eq_true hneg
    omega
  · rename_i hpos
    have : ¬i < 0 := fun hneg => hpos (decide_eq_true hneg)
    omega

theorem roundUnits_units (n : Nat) : roundUnits (n * unitsPerOne) 1 = roundUnits n 1 * unitsPerOne := by
  unfold unitsPerOne
  generalize 1074 = k
  exact roundUnits_ones n k

theorem snapUnits_pos : 0 < snapUnits := by decide +kernel

theorem distance_self (n : Nat) : distance n n = 0 := by
  unfold distance
  rw [Nat.sub_self]

/-- A double that is a whole number is written as that number. -/
theorem format_finite {negative : Bool} {n units : Nat} {fits : Fits units} (hu : units = n * unitsPerOne) :
    (Binary64.finite negative units fits).format 2 = .ok (toString (Binary64.signedUnits negative n)) := by
  have nearest : roundDiv units unitsPerOne = n := by
    rw [hu]
    exact roundDiv_mul_right n unitsPerOne unitsPerOne_pos
  have near : distance units (n * unitsPerOne) < snapUnits := by
    rw [hu, distance_self]
    exact snapUnits_pos
  unfold Binary64.format
  dsimp only
  rw [nearest, if_pos near]

theorem ofRatio_finite {negative sign : Bool} {num den units : Nat} {fits : Fits units}
    (h : Binary64.ofRatio negative num den = .finite sign units fits) :
    sign = negative ∧ units = roundUnits num den := by
  unfold Binary64.ofRatio at h
  by_cases limit : roundUnits num den < unitsLimit
  · rw [dif_pos limit] at h
    exact ⟨(Binary64.finite.inj h).1.symm, (Binary64.finite.inj h).2.symm⟩
  · rw [dif_neg limit] at h
    exact absurd h nofun

theorem bounded_eq {x y : Binary64} (h : x.bounded = .ok y) : y = x := by
  unfold Binary64.bounded at h
  split at h
  · exact absurd h nofun
  · exact (Except.ok.inj h).symm

/-- A whole number in a style. -/
theorem format_int {i : Int} {s : String} (h : (int i).format 2 = .ok s) : s = toString (written i) := by
  unfold Number.format at h
  obtain ⟨x, rounded, h⟩ := ok_of_bind h
  have nearest : x = Binary64.ofInt i := bounded_eq rounded
  cases x with
  | nan => exact absurd nearest.symm (Binary64.ofRatio_ne_nan _ _ _)
  | infinity t => exact absurd h nofun
  | finite sign units fits =>
    obtain ⟨hsign, hunits⟩ := ofRatio_finite nearest.symm
    rw [← Except.ok.inj ((format_finite (hunits.trans (roundUnits_units _))).symm.trans h), hsign]
    rfl

theorem lt_unitsLimit {n : Nat} (h : n < 2 ^ 53) : n * unitsPerOne < unitsLimit := by
  have room : 2 ^ 53 * unitsPerOne ≤ unitsLimit := by
    unfold unitsPerOne unitsLimit
    -- the powers stay as they are: written out they are too long
    generalize units : 1074 = k
    generalize limit : 2098 = l
    have fewer : 53 + k ≤ l := by omega
    show 2 ^ 53 * 2 ^ k ≤ 2 ^ l
    rw [← Nat.pow_add]
    exact Nat.pow_le_pow_right (by decide) fewer
  exact Nat.lt_of_lt_of_le (Nat.mul_lt_mul_of_pos_right h unitsPerOne_pos) room

/-- A quotient that is not too large is the number that it is rounded to. -/
theorem bounded_ofRatio (negative : Bool) {num den : Nat} (h : roundUnits num den < unitsLimit) :
    ∃ fits, (Binary64.ofRatio negative num den).bounded = .ok (.finite negative (roundUnits num den) fits) := by
  unfold Binary64.ofRatio
  exact ⟨_, by rw [dif_pos h]; rfl⟩

/-- A whole number of at most 53 bits can be written. -/
theorem format_small {i : Int} (h : i.natAbs < 2 ^ 53) : ∃ s, (int i).format 2 = .ok s := by
  have kept : roundUnits (i.natAbs * unitsPerOne) 1 = i.natAbs * unitsPerOne := by
    rw [roundUnits_units, roundUnits_of_log2_le (log2_le h)]
  have below := lt_unitsLimit h
  unfold Number.format toDouble Binary64.ofInt
  dsimp only
  -- from here on the product is not to be looked into
  generalize whole : i.natAbs * unitsPerOne = units at kept below ⊢
  obtain ⟨fits, double⟩ := bounded_ofRatio (decide (i < 0)) (kept.symm ▸ below)
  rw [double, ok_bind, format_finite (kept.trans whole.symm)]
  exact ⟨_, rfl⟩

/-- Zero of either kind can be written. -/
theorem format_of_isZero {n : Number} (h : n.isZero = true) : ∃ s, n.format 2 = .ok s := by
  cases n with
  | int i =>
    have none : i = 0 := by simpa [isZero] using h
    rw [none]
    exact format_small (by decide)
  | real x =>
    cases x with
    | nan => cases h
    | infinity s => cases h
    | finite s units fits =>
      have none : units = 0 := by simpa [isZero, Binary64.isZero] using h
      unfold Number.format toDouble
      dsimp only
      rw [ok_bind, format_finite (none.trans (Nat.zero_mul _).symm)]
      exact ⟨_, rfl⟩

/-! ## 3. Lengths -/

/-- A whole number of pixels in a style. -/
theorem px_int {i : Int} {s : String} (h : (int i).px = .ok s) : s = toString (written i) ++ "px" := by
  unfold px at h
  obtain ⟨digits, formatted, h⟩ := ok_of_bind h
  rw [← Except.ok.inj h, format_int formatted]

/-- The whole number of pixels that characters spell. -/
def pixels? (s : List Char) : Option Int :=
  match s.reverse with
  | 'x' :: 'p' :: digits => Numeral.integer? digits.reverse
  | _ => none

/-- **A length in whole pixels reads back.** -/
theorem pixels?_toString (i : Int) : pixels? (toString i ++ "px").toList = some i := by
  have reversed : (toString i ++ "px").toList.reverse = 'x' :: 'p' :: (toString i).toList.reverse := by
    rw [String.toList_append, List.reverse_append]
    rfl
  unfold pixels?
  rw [reversed]
  show Numeral.integer? (toString i).toList.reverse.reverse = some i
  rw [List.reverse_reverse]
  exact Numeral.integer?_toString i

end Number

end Artboard
