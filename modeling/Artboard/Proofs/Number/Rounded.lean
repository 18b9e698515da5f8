import Artboard.Proofs.Number.Plain
import Artboard.Proofs.Number.Shortest
import Artboard.Proofs.Number.Twins

/-!
# What is printed for a number

A number of a design below a milliard is printed in a style as a plain decimal (`Numeral.plainValue?`), which is its
exact value rounded to the decimal places asked for, and as an integer wherever it is close to one
(`Number.format_rounds`).  Two roundings meet there: the exact value is rounded to a decimal, and the decimal to the
nearest double, whose fewest digits are this decimal again (`shortest_eq`).  Numbers that are close to an integer are
not rounded so, but it comes to the same, since a millionth is less than half a step of four decimal places.
-/

namespace Artboard

open Numeral

theorem cast_unitsPerOne_pos : (0 : ℚ) < unitsPerOne := by exact_mod_cast unitsPerOne_pos

/-! ## 1. Rounding to decimal places -/

/-- Rounding a quotient to 53 bits does not see a common factor. -/
theorem roundUnits_mul_mul (num den : Nat) {k : Nat} (h : 0 < k) :
    roundUnits (num * k) (den * k) = roundUnits num den := by
  unfold roundUnits
  dsimp only
  rw [Nat.mul_div_mul_right num den h]
  generalize (num / den).log2 - 52 = s
  rw [Nat.mul_right_comm, Number.roundDiv_mul_mul _ _ _ h]

section Places

variable {places c : Nat} (few : places ≤ 4)

include few

/-- The double nearest to a decimal has it for one that reads back. -/
theorem readsBack_places : readsBack (roundUnits (c * unitsPerOne) (10 ^ places)) (1074 - places) c = true := by
  unfold readsBack unitsPerOne
  have fits : places ≤ 1074 := by omega
  generalize 1074 = n at fits ⊢
  have five : 0 < 5 ^ n := Nat.pow_pos (by decide)
  have ten : 0 < 10 ^ places := Nat.pow_pos (by decide)
  have split : c * 2 ^ n * 5 ^ n = c * 10 ^ (n - places) * 10 ^ places := by
    rw [Nat.mul_assoc, ← Nat.mul_pow, Nat.mul_assoc, ← Nat.pow_add, Nat.sub_add_cancel fits]
  have scaled := roundUnits_mul_mul (c * 2 ^ n) (10 ^ places) five
  rw [split, Nat.mul_comm (10 ^ places), roundUnits_mul_mul _ _ ten] at scaled
  exact beq_iff_eq.mpr scaled

/-- Such a double has all its 53 bits. -/
theorem le_roundUnits_places (some : 0 < c) : 2 ^ 52 ≤ roundUnits (c * unitsPerOne) (10 ^ places) := by
  refine le_roundUnits (Nat.pow_pos (by decide)) ?_
  have room : 2 ^ 52 * 10 ^ 4 ≤ unitsPerOne := by decide +kernel
  calc 2 ^ 52 * 10 ^ places ≤ 2 ^ 52 * 10 ^ 4 := Nat.mul_le_mul_left _ (Nat.pow_le_pow_right (by decide) few)
    _ ≤ unitsPerOne := room
    _ ≤ c * unitsPerOne := Nat.le_mul_of_pos_left _ some

/-- **The double nearest to a decimal with few places is printed as this decimal.** -/
theorem unsignedValue?_shortest (behind : 0 < places) (some : 0 < c) (small : c ≤ 10 ^ 14) :
    unsignedValue? places (shortest (roundUnits (c * unitsPerOne) (10 ^ places))).text =
      .some ((c : ℚ) / 10 ^ places) := by
  have reads := readsBack_places (c := c) few
  have large := le_roundUnits_places few some
  generalize roundUnits (c * unitsPerOne) (10 ^ places) = units at reads large ⊢
  have near := distance_of_readsBack large reads
  have short : exactCoefficient units < 10 ^ 15 * 10 ^ (1074 - places) := by
    have size := Nat.mul_le_mul_right (10 ^ (1074 - places)) small
    have step : 0 < 10 ^ (1074 - places) := Nat.pow_pos (by decide)
    unfold distance at near
    generalize 10 ^ (1074 - places) = grid at *
    generalize c * grid = value at *
    omega
  obtain ⟨coefficient, drop, digits, value⟩ := shortest_eq large reads short
  rw [digits]
  exact Decimal.unsignedValue?_text behind few some (by omega) value (by dsimp only; omega)

end Places

namespace Binary64

/-- A decimal with few digits and places is not beyond the range of doubles. -/
theorem ofDecimal_places (negative : Bool) {places c : Nat} (few : places ≤ 4) (some : 0 < c) (small : c ≤ 10 ^ 14) :
    ofDecimal negative ⟨c, -places⟩ = ofRatio negative (c * unitsPerOne) (10 ^ places) := by
  have positive : 0 < (digitsOf c).length := Nat.length_toDigits_pos
  have length : (digitsOf c).length ≤ 15 := (Nat.length_toDigits_le_iff (by decide) (by decide)).mpr (by omega)
  have none : Nat.pow 10 (-(places : Int)).toNat = 1 := by
    rw [Int.toNat_eq_zero.mpr (by omega), Nat.pow_eq, Nat.pow_zero]
  have dropped : Nat.pow 10 (- -(places : Int)).toNat = 10 ^ places := by
    rw [Int.neg_neg, Int.toNat_natCast, Nat.pow_eq]
  unfold ofDecimal
  dsimp only
  rw [if_neg (by omega), if_neg (by omega), if_neg (by omega), none, dropped, Nat.mul_one]

theorem cast_signedUnits (negative : Bool) (n : Nat) :
    ((signedUnits negative n : ℤ) : ℚ) = if negative then -(n : ℚ) else n := by
  cases negative <;> simp [signedUnits]

/-- A rounded quotient of units is a finite number, as long as it is not large. -/
theorem ofRatio_places (negative : Bool) (places : Nat) {c : Nat} (small : c ≤ 10 ^ 14) : ∃ units fits,
    ofRatio negative (c * unitsPerOne) (10 ^ places) = .finite negative units fits ∧
      units = roundUnits (c * unitsPerOne) (10 ^ places) := by
  have bound : c * unitsPerOne ≤ 1 * Number.large * unitsPerOne * 10 ^ places := by
    have room : 10 ^ 14 ≤ Number.large := by decide +kernel
    rw [Nat.one_mul]
    calc c * unitsPerOne ≤ Number.large * unitsPerOne := Nat.mul_le_mul_right _ (Nat.le_trans small room)
      _ ≤ Number.large * unitsPerOne * 10 ^ places := Nat.le_mul_of_pos_right _ (Nat.pow_pos (by decide))
  obtain ⟨sign, units, fits, rounded, -⟩ := atMost_ofRatio negative (by decide) bound
  obtain ⟨rfl, whole⟩ := Number.ofRatio_finite rounded
  exact ⟨units, fits, rounded, whole⟩

theorem ofDecimal_zero (negative : Bool) (exponent : Int) :
    ofDecimal negative ⟨0, exponent⟩ = ofRatio negative 0 1 := by
  unfold ofDecimal
  dsimp only
  rw [if_pos rfl]
  rfl

theorem toList_text (negative : Bool) {units : Nat} (fits : Fits units) {digits : List Char}
    (h : (if units = 0 then ['0', '.', '0'] else (shortest units).text) = digits) :
    (finite negative units fits).text.toList = if negative then '-' :: digits else digits := by
  unfold text
  dsimp only
  rw [String.toList_ofList, h]

/-- **A number rounded to decimal places is printed as it is rounded.** -/
theorem plainValue?_ofDecimal (negative : Bool) {places c : Nat} (behind : 0 < places) (few : places ≤ 4)
    (small : c ≤ 10 ^ 14) : ∃ units fits, ofDecimal negative ⟨c, -places⟩ = .finite negative units fits ∧
      plainValue? places (finite negative units fits).text.toList =
        some ((signedUnits negative c : ℚ) / 10 ^ places) := by
  have sign {s : List Char} (h : unsignedValue? places s = some ((c : ℚ) / 10 ^ places)) :
      plainValue? places (if negative then '-' :: s else s) =
        some ((signedUnits negative c : ℚ) / 10 ^ places) := by
    rw [plainValue?_signed negative h, cast_signedUnits]
    cases negative
    · rfl
    · simp [neg_div]
  rcases Nat.eq_zero_or_pos c with rfl | positive
  · -- zero has a place behind the point, and may have a sign
    have digits : unsignedValue? places ['0', '.', '0'] = some (((0 : ℕ) : ℚ) / 10 ^ places) := by
      have read := unsignedValue?_point digits_zero digits_zero behind
      rw [show Nat.ofDigitChars 10 (['0'] ++ ['0']) 0 = 0 from rfl, Nat.cast_zero, zero_div] at read
      rw [Nat.cast_zero, zero_div]
      exact read
    obtain ⟨units, fits, zero, none⟩ := ofRatio_places negative 0 small
    rw [Nat.zero_mul, roundUnits_zero] at none
    rw [Nat.zero_mul, Nat.pow_zero] at zero
    refine ⟨units, fits, (ofDecimal_zero negative _).trans zero, ?_⟩
    rw [toList_text negative fits (if_pos none)]
    exact sign digits
  · obtain ⟨units, fits, rounded, whole⟩ := ofRatio_places negative places small
    refine ⟨units, fits, (ofDecimal_places negative few positive small).trans rounded, ?_⟩
    have large := le_roundUnits_places few positive
    have digits := unsignedValue?_shortest few behind positive small
    rw [← whole] at large digits
    rw [toList_text negative fits (if_neg (by omega))]
    exact sign digits

end Binary64

/-! ## 2. Numbers in styles -/

namespace Number

/-- The exact value of a finite number. -/
def rational? (n : Number) : Option ℚ :=
  match n.place? with
  | some (.units count) => some (count / unitsPerOne)
  | _ => none

/-- The exact value of the double nearest to a millionth. -/
def millionth : ℚ := snapUnits / unitsPerOne

/-- It is what a numeral says. -/
theorem rational?_millionth : ((Numeral.readDouble? "1e-06").map real).bind rational? = some millionth := by
  have read : (Numeral.readDouble? "1e-06").bind (fun x => (real x).place?) = some (.units snapUnits) := by
    decide +kernel
  obtain ⟨x, numeral, place⟩ := Option.bind_eq_some_iff.mp read
  rw [numeral]
  show (real x).rational? = some millionth
  unfold rational?
  rw [place]
  rfl

/-- Four decimal places are too few for a millionth. -/
theorem millionth_small : millionth * 10 ^ 4 < 1 / 2 := by
  have room : snapUnits * 10 ^ 4 * 2 < unitsPerOne := by decide +kernel
  have positive := cast_unitsPerOne_pos
  have room : (snapUnits : ℚ) * 10 ^ 4 * 2 < unitsPerOne := by exact_mod_cast room
  unfold millionth
  rw [div_mul_eq_mul_div, div_lt_iff₀ positive]
  linarith

end Number

namespace Binary64

/-- The exact value of a finite double. -/
def value (negative : Bool) (units : Nat) : ℚ := signedUnits negative units / unitsPerOne

/-- Rounding does not see the sign. -/
theorem isNearest_signed {x : ℚ} {n : Nat} (h : IsNearest x n) (negative : Bool) :
    IsNearest (if negative then -x else x) (signedUnits negative n) := by
  cases negative with
  | false => exact h
  | true => exact h.neg

theorem isNearest_places (negative : Bool) (units places : Nat) :
    IsNearest (value negative units * 10 ^ places)
      (signedUnits negative (roundDiv (units * 10 ^ places) unitsPerOne)) := by
  have nearest := isNearest_signed (isNearest_roundDiv (units * 10 ^ places) unitsPerOne_pos) negative
  have scaled : ((units * 10 ^ places : ℕ) : ℚ) / unitsPerOne = units / unitsPerOne * 10 ^ places := by
    push_cast
    rw [div_mul_eq_mul_div]
  have same : value negative units * 10 ^ places =
      if negative then -((units : ℚ) / unitsPerOne * 10 ^ places) else units / unitsPerOne * 10 ^ places := by
    unfold value
    rw [cast_signedUnits]
    cases negative
    · rfl
    · simp only [↓reduceIte]
      rw [neg_div, neg_mul]
  rwa [scaled, ← same] at nearest

theorem cast_distance (a b : Nat) : ((distance a b : ℕ) : ℚ) = |(a : ℚ) - b| := by
  unfold distance
  rcases Nat.le_total a b with le | le
  · rw [Nat.sub_eq_zero_of_le le, Nat.zero_add, Nat.cast_sub le, abs_sub_comm, abs_of_nonneg]
    exact sub_nonneg.mpr (by exact_mod_cast le)
  · rw [Nat.sub_eq_zero_of_le le, Nat.add_zero, Nat.cast_sub le, abs_of_nonneg]
    exact sub_nonneg.mpr (by exact_mod_cast le)

theorem abs_value (negative : Bool) (units : Nat) : |value negative units| = (units : ℚ) / unitsPerOne := by
  have positive := cast_unitsPerOne_pos
  unfold value
  rw [abs_div, ← Int.cast_abs, Int.abs_eq_natAbs, natAbs_signedUnits, Int.cast_natCast, abs_of_pos positive]

/-- How far a double is from an integer of its sign. -/
theorem abs_value_sub (negative : Bool) (units n : Nat) : |value negative units - signedUnits negative n| =
    (distance units (n * unitsPerOne) : ℕ) / unitsPerOne := by
  have positive := cast_unitsPerOne_pos
  have apart : |value negative units - signedUnits negative n| = |(units : ℚ) / unitsPerOne - n| := by
    unfold value
    rw [cast_signedUnits, cast_signedUnits]
    cases negative with
    | false => rfl
    | true =>
      simp only [↓reduceIte]
      rw [neg_div, neg_sub_neg, abs_sub_comm]
  rw [apart, cast_distance, ← abs_of_pos positive, ← abs_div, abs_of_pos positive, sub_div, Nat.cast_mul,
    mul_div_cancel_right₀ _ positive.ne']

/-- **The only integer that a double can be close to** is the one it is rounded to. -/
theorem close_iff (negative : Bool) (units : Nat) (i : Int) : |value negative units - i| < Number.millionth ↔
    i = signedUnits negative (roundDiv units unitsPerOne) ∧
      distance units (roundDiv units unitsPerOne * unitsPerOne) < snapUnits := by
  have positive := cast_unitsPerOne_pos
  have close : |value negative units - signedUnits negative (roundDiv units unitsPerOne)| < Number.millionth ↔
      distance units (roundDiv units unitsPerOne * unitsPerOne) < snapUnits := by
    unfold Number.millionth
    rw [abs_value_sub, div_lt_div_iff_of_pos_right positive, Nat.cast_lt]
  have nearest := isNearest_places negative units 0
  rw [pow_zero, mul_one, Nat.pow_zero, Nat.mul_one] at nearest
  constructor
  · intro h
    have small : Number.millionth < 1 / 2 := by linarith [Number.millionth_small, abs_nonneg (value negative units - i)]
    obtain rfl := (IsNearest.of_lt (h.trans small)).unique nearest
    exact ⟨rfl, close.mp h⟩
  · rintro ⟨rfl, h⟩
    exact close.mpr h

theorem plainValue?_toString (places : Nat) (i : Int) : plainValue? places (toString i).toList = some (i : ℚ) := by
  have digits := unsignedValue?_digits places (digits_digitsOf i.natAbs)
  have value : Nat.ofDigitChars 10 (digitsOf i.natAbs) 0 = i.natAbs := Nat.ofDigitChars_ten_toDigits
  rw [value] at digits
  have signed := plainValue?_signed (decide (i < 0)) digits
  have text : (toString i).toList =
      if decide (i < 0) = true then '-' :: digitsOf i.natAbs else digitsOf i.natAbs := by
    rw [toList_toString]
    simp only [decide_eq_true_eq, ← Int.not_lt, ite_not]
  have same : (if decide (i < 0) = true then -((i.natAbs : ℕ) : ℚ) else (i.natAbs : ℕ)) = i := by
    rw [← cast_signedUnits, signedUnits_natAbs]
  rw [text, signed, same]

/-- **A finite number that is not large is printed as its exact value rounded to decimal places**, and as an integer
if it is close to one. -/
theorem format_nearest (negative : Bool) {units : Nat} (fits : Fits units) (small : units ≤ 10 ^ 9 * unitsPerOne)
    {places : Nat} (behind : 0 < places) (few : places ≤ 4) : ∃ (text : String) (k : ℤ),
      (finite negative units fits).format places = .ok text ∧
      plainValue? places text.toList = some ((k : ℚ) / 10 ^ places) ∧
      IsNearest (value negative units * 10 ^ places) k ∧
      ∀ i : ℤ, |value negative units - i| < Number.millionth → text = toString i := by
  unfold format
  dsimp only
  have place : (10 : ℚ) ^ places ≤ 10 ^ 4 := pow_le_pow_right₀ (by norm_num) few
  split
  · -- less than a millionth from an integer is less than half a step of the decimal places from it
    rename_i snapped
    refine ⟨_, signedUnits negative (roundDiv units unitsPerOne) * 10 ^ places, rfl, ?_, .of_lt ?_, fun i close => ?_⟩
    · rw [plainValue?_toString]
      push_cast
      rw [mul_div_cancel_right₀ _ (by positivity)]
    · have close := (close_iff negative units _).mpr ⟨rfl, snapped⟩
      push_cast
      rw [← sub_mul, abs_mul, abs_of_pos (show (0 : ℚ) < 10 ^ places by positivity)]
      have nonneg : 0 ≤ Number.millionth := (abs_nonneg _).trans close.le
      calc _ ≤ Number.millionth * 10 ^ 4 := by gcongr
        _ < 1 / 2 := Number.millionth_small
    · rw [((close_iff negative units i).mp close).1]
  · rename_i apart
    have size : roundDiv (units * 10 ^ places) unitsPerOne ≤ 10 ^ 14 := by
      refine roundDiv_le ?_
      calc units * 10 ^ places ≤ 10 ^ 9 * unitsPerOne * 10 ^ 4 :=
            Nat.mul_le_mul small (Nat.pow_le_pow_right (by decide) few)
        _ = 10 ^ 13 * unitsPerOne := by rw [Nat.mul_right_comm, ← Nat.pow_add]
        _ ≤ 10 ^ 14 * unitsPerOne := Nat.mul_le_mul_right _ (by decide)
    obtain ⟨rounded, fits', double, read⟩ := plainValue?_ofDecimal negative behind few size
    rw [roundTo_places negative fits (by omega), double]
    exact ⟨_, _, rfl, read, isNearest_places negative units places,
      fun i close => absurd ((close_iff negative units i).mp close).2 apart⟩

end Binary64

namespace Number

/-- A number that is not large is written as a double of the same exact value. -/
theorem toDouble_exact {n : Number} {v : ℚ} (exact : n.rational? = some v) (small : |v| < 10 ^ 9) :
    ∃ negative units fits, n.toDouble = .ok (.finite negative units fits) ∧ Binary64.value negative units = v := by
  cases n with
  | int i =>
    have whole : (i : ℚ) = v := by
      have positive := cast_unitsPerOne_pos
      have quotient : ((i * unitsPerOne : ℤ) : ℚ) / unitsPerOne = v := Option.some.inj exact
      push_cast at quotient
      rwa [mul_div_cancel_right₀ _ positive.ne'] at quotient
    have few : i.natAbs < 2 ^ 53 := by
      have size : |i| < 10 ^ 9 := by
        rw [← whole] at small
        exact_mod_cast small
      have := abs_lt.mp size
      omega
    obtain ⟨x, double, means⟩ := (means_int i).toDouble few
    obtain ⟨negative, units, fits, rfl, -, -⟩ := means.finite
    have place : Binary64.signedUnits negative units = i * unitsPerOne := Place.units.inj (Option.some.inj means)
    refine ⟨negative, units, fits, double, ?_⟩
    unfold Binary64.value
    rw [place]
    exact Option.some.inj exact
  | real x =>
    cases x with
    | nan => cases exact
    | infinity negative => cases negative <;> cases exact
    | finite negative units fits => exact ⟨negative, units, fits, rfl, Option.some.inj exact⟩

/-- What is printed for one number. -/
theorem format_nearest {places : Nat} (behind : 0 < places) (few : places ≤ 4) {n : Number} {v : ℚ}
    (exact : n.rational? = some v) (small : |v| < 10 ^ 9) : ∃ (text : String) (k : ℤ),
      n.format places = .ok text ∧ plainValue? places text.toList = some ((k : ℚ) / 10 ^ places) ∧
      IsNearest (v * 10 ^ places) k ∧ ∀ i : ℤ, |v - i| < millionth → text = toString i := by
  obtain ⟨negative, units, fits, double, rfl⟩ := toDouble_exact exact small
  have size : units ≤ 10 ^ 9 * unitsPerOne := by
    have positive := cast_unitsPerOne_pos
    rw [Binary64.abs_value, div_lt_iff₀ positive] at small
    exact_mod_cast small.le
  unfold format
  rw [double, ok_bind]
  exact Binary64.format_nearest negative fits size behind few

/-- **Numbers are printed as correctly rounded plain decimals.**  A finite number below a milliard is printed without a
power of ten; what is printed is the exact value rounded to the decimal places, to the nearest and a half to the even
neighbour, and an integer wherever the exact value is less than a millionth from it.  So a larger number is not printed
as a smaller one. -/
theorem format_rounds {places : Nat} (behind : 0 < places) (few : places ≤ 4) {n : Number} {v : ℚ}
    (exact : n.rational? = some v) (small : |v| < 10 ^ 9) : ∃ (text : String) (value : ℚ),
      n.format places = .ok text ∧ plainValue? places text.toList = some value ∧
      (∃ k : ℤ, value = k / 10 ^ places ∧ IsNearest (v * 10 ^ places) k) ∧
      (∀ i : ℤ, |v - i| < millionth → text = toString i ∧ value = i) ∧
      ∀ (m : Number) (w : ℚ), m.rational? = some w → |w| < 10 ^ 9 → v ≤ w → ∃ (other : String) (larger : ℚ),
        m.format places = .ok other ∧ plainValue? places other.toList = some larger ∧ value ≤ larger := by
  obtain ⟨text, k, printed, read, nearest, close⟩ := format_nearest behind few exact small
  refine ⟨text, _, printed, read, ⟨k, rfl, nearest⟩, fun i near => ?_, fun m w exact' small' le => ?_⟩
  · obtain rfl := close i near
    rw [Binary64.plainValue?_toString] at read
    exact ⟨rfl, (Option.some.inj read).symm⟩
  · obtain ⟨other, l, printed', read', nearest', -⟩ := format_nearest behind few exact' small'
    refine ⟨other, _, printed', read', ?_⟩
    have order : k ≤ l := nearest.mono nearest' (by gcongr)
    have order : (k : ℚ) ≤ l := by exact_mod_cast order
    gcongr

/-- Minus an eighth lies halfway between two decimals of two places. -/
theorem format_rounds_eighth : (real (Binary64.ofRatio true unitsPerOne 8)).rational? = some (-1 / 8) ∧
    |(-1 / 8 : ℚ)| < 10 ^ 9 ∧
    ∃ (text : String) (k : ℤ), (real (Binary64.ofRatio true unitsPerOne 8)).format 2 = .ok text ∧
      plainValue? 2 text.toList = some ((k : ℚ) / 10 ^ 2) ∧ IsNearest (-1 / 8 * 10 ^ 2) k ∧ text = "-0.12" := by
  have exact : (real (Binary64.ofRatio true unitsPerOne 8)).rational? = some (-1 / 8) := by
    have place : (real (Binary64.ofRatio true unitsPerOne 8)).place? =
        some (.units (-(unitsPerOne / 8 : ℕ))) := by decide +kernel
    have eight : unitsPerOne / 8 * 8 = unitsPerOne := by decide +kernel
    have positive := cast_unitsPerOne_pos
    unfold rational?
    rw [place]
    generalize unitsPerOne / 8 = part at eight
    have eight : (part : ℚ) * 8 = unitsPerOne := by exact_mod_cast eight
    refine congrArg some ((div_eq_iff positive.ne').mpr ?_)
    push_cast
    linarith
  have small : |(-1 / 8 : ℚ)| < 10 ^ 9 := by rw [abs_lt]; norm_num
  obtain ⟨text, _, printed, read, ⟨k, rfl, nearest⟩, -, -⟩ :=
    format_rounds (show 0 < 2 by decide) (by decide) exact small
  have digits : (real (Binary64.ofRatio true unitsPerOne 8)).format 2 = .ok "-0.12" := by decide +kernel
  refine ⟨exact, small, text, k, printed, read, nearest, ?_⟩
  exact Except.ok.inj (printed.symm.trans digits)

end Number

end Artboard
