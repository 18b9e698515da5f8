import Artboard.Proofs.Number.Notation
import Mathlib.Algebra.Order.Field.Rat
import Mathlib.Data.List.DropRight
import Mathlib.Tactic.FieldSimp
import Mathlib.Tactic.Ring

/-!
# Plain decimals

A plain decimal has digits, perhaps a point with some more behind it, a minus in front if it is negative, and no power
of ten (`Numeral.plainValue?`).  A decimal with few places behind its point is written so, however its digits are
divided among coefficient and power of ten: the zeros at the end of the coefficient do not count, and what is left of
it has no more places than the number itself (`Decimal.unsignedValue?_text`).
-/

namespace Artboard

/-! ## 1. Plain decimals -/

namespace Numeral

/-- The number that digits spell, with at most `places` of them behind a point. -/
def unsignedValue? (places : Nat) (s : List Char) : Option ℚ :=
  let whole := s.takeWhile Char.isDigit
  if whole.isEmpty then none
  else match s.dropWhile Char.isDigit with
    | [] => some (Nat.ofDigitChars 10 whole 0)
    | '.' :: part =>
      if part.isEmpty || places < part.length || !part.all Char.isDigit then none
      else some (Nat.ofDigitChars 10 (whole ++ part) 0 / 10 ^ part.length)
    | _ => none

/-- **The number that a plain decimal spells**: digits, behind a minus for a negative one, and perhaps a point with at
most `places` digits behind it.  There is no power of ten. -/
def plainValue? (places : Nat) : List Char → Option ℚ
  | '-' :: s => (unsignedValue? places s).map (- ·)
  | s => unsignedValue? places s

variable {places : Nat} {digits part s : List Char} {value : ℚ}

theorem unsignedValue?_digits (places : Nat) (h : Digits digits) :
    unsignedValue? places digits = some (Nat.ofDigitChars 10 digits 0 : ℚ) := by
  obtain ⟨taken, dropped⟩ := takeWhile_append_stop (t := []) h.2 rfl
  rw [List.append_nil] at taken dropped
  unfold unsignedValue?
  rw [taken, dropped]
  simp [h.1]

theorem unsignedValue?_point (h : Digits digits) (hp : Digits part) (few : part.length ≤ places) :
    unsignedValue? places (digits ++ '.' :: part) =
      some ((Nat.ofDigitChars 10 (digits ++ part) 0 : ℚ) / 10 ^ part.length) := by
  obtain ⟨taken, dropped⟩ := takeWhile_append_stop (t := '.' :: part) h.2 rfl
  have all : part.all Char.isDigit = true := List.all_eq_true.mpr hp.2
  unfold unsignedValue?
  rw [taken, dropped]
  simp [h.1, hp.1, all, Nat.not_lt.mpr few]

/-- A minus in front of a decimal. -/
theorem plainValue?_signed (negative : Bool) (h : unsignedValue? places s = some value) :
    plainValue? places (if negative then '-' :: s else s) = some (if negative then -value else value) := by
  cases negative with
  | true =>
    show (unsignedValue? places s).map (- ·) = some (-value)
    rw [h]
    rfl
  | false =>
    unfold plainValue?
    split
    · -- no decimal without sign starts with a minus
      rename_i minus
      rw [show (if false = true then '-' :: s else s) = s from rfl] at minus
      rw [minus] at h
      cases h
    · exact h

end Numeral

/-! ## 2. The notation of a decimal -/

open Numeral

/-- Zeros in front do not count. -/
theorem ofDigitChars_zeros_append (n : Nat) (s : List Char) :
    Nat.ofDigitChars 10 (List.replicate n '0' ++ s) 0 = Nat.ofDigitChars 10 s 0 := by
  rw [Nat.ofDigitChars_append, Nat.ofDigitChars_replicate_zero, Nat.mul_zero]

/-- Zeros at the end are powers of ten. -/
theorem ofDigitChars_append_zeros (s : List Char) (n : Nat) :
    Nat.ofDigitChars 10 (s ++ List.replicate n '0') 0 = Nat.ofDigitChars 10 s 0 * 10 ^ n := by
  rw [Nat.ofDigitChars_append, Nat.ofDigitChars_replicate_zero, Nat.mul_comm]

/-- Digits with their point some places before their end, or behind it. -/
theorem Decimal.unsignedValue?_positional {digits : List Char} (h : Digits digits) {places more : Nat}
    (some : 0 < places) {point : Int} (place : point = digits.length + more - places) :
    unsignedValue? places (positional digits point) =
      .some ((Nat.ofDigitChars 10 digits 0 : ℚ) * 10 ^ more / 10 ^ places) := by
  have positive : 0 < digits.length := List.length_pos_iff.mpr h.1
  -- the places behind the point are those that the digits do not fill up
  have fewer {part : Nat} (split : part + more = places) :
      (Nat.ofDigitChars 10 digits 0 : ℚ) * 10 ^ more / 10 ^ places = Nat.ofDigitChars 10 digits 0 / 10 ^ part := by
    rw [← split, pow_add]
    field_simp
  unfold positional
  split_ifs with front inside
  · have length : (List.replicate (-point).toNat '0' ++ digits).length + more = places := by
      rw [List.length_append, List.length_replicate]
      omega
    have part : Digits (List.replicate (-point).toNat '0' ++ digits) := by
      refine ⟨List.append_ne_nil_of_right_ne_nil _ h.1, fun c hc => ?_⟩
      exact (List.mem_append.mp hc).elim isDigit_of_mem_zeros (h.2 c)
    have read := unsignedValue?_point digits_zero part (show _ ≤ places by omega)
    rw [fewer length, ← ofDigitChars_zeros_append ((-point).toNat + 1) digits]
    exact read
  · have whole : Digits (digits ++ List.replicate (point.toNat - digits.length) '0') :=
      h.append fun c hc => isDigit_of_mem_zeros hc
    have read := unsignedValue?_point whole digits_zero (show 1 ≤ places from some)
    rw [read, List.append_assoc, show ['0'] = List.replicate 1 '0' from rfl, List.replicate_append_replicate,
      ofDigitChars_append_zeros]
    have split : point.toNat - digits.length + places = more := by omega
    rw [← split]
    push_cast
    rw [pow_add, pow_add]
    field_simp
    simp
  · have length : (digits.drop point.toNat).length + more = places := by
      rw [List.length_drop]
      omega
    have lead : Digits (digits.take point.toNat) := by
      refine ⟨fun none => ?_, fun c hc => h.2 c (List.mem_of_mem_take hc)⟩
      rcases List.take_eq_nil_iff.mp none with none | none
      · omega
      · exact h.1 none
    have part : Digits (digits.drop point.toNat) := by
      refine ⟨fun none => ?_, fun c hc => h.2 c (List.mem_of_mem_drop hc)⟩
      have := List.drop_eq_nil_iff.mp none
      omega
    have read := unsignedValue?_point lead part (show _ ≤ places by omega)
    rw [read, List.take_append_drop, fewer length]

/-! ## 3. The significant digits -/

namespace Decimal

variable {d : Decimal}

/-- The number that the significant digits spell. -/
def lead (d : Decimal) : Nat := Nat.ofDigitChars 10 d.significant 0

/-- The significant digits are all but the zeros at the end. -/
theorem coefficient_eq (d : Decimal) : ∃ zeros : Nat, d.coefficient = d.lead * 10 ^ zeros ∧
    (digitsOf d.coefficient).length = d.significant.length + zeros := by
  have zeros : ∀ c ∈ (digitsOf d.coefficient).rtakeWhile (· == '0'), c = '0' :=
    fun c hc => eq_of_beq (List.mem_rtakeWhile_imp (p := (· == '0')) hc)
  have split : d.significant ++ _ = digitsOf d.coefficient := List.rdropWhile_append_rtakeWhile
  rw [List.eq_replicate_of_mem zeros] at split
  generalize ((digitsOf d.coefficient).rtakeWhile (· == '0')).length = more at split
  refine ⟨more, ?_, ?_⟩
  · have value : Nat.ofDigitChars 10 (digitsOf d.coefficient) 0 = d.coefficient := Nat.ofDigitChars_ten_toDigits
    rw [← split, ofDigitChars_append_zeros] at value
    exact value.symm
  · rw [← split, List.length_append, List.length_replicate]

/-- The last significant digit is none of them. -/
theorem lead_mod_ten (h : 0 < d.coefficient) : d.lead % 10 ≠ 0 := by
  obtain ⟨given, digits⟩ := digits_significant h
  have last : (d.significant.getLast given == '0') = false :=
    Bool.eq_false_iff.mpr (List.rdropWhile_last_not (· == '0') _ given)
  obtain ⟨low, high⟩ := Char.isDigit_iff_toNat.mp (digits _ (List.getLast_mem given))
  have split := List.dropLast_append_getLast given
  unfold lead
  rw [← split, Nat.ofDigitChars_append]
  generalize Nat.ofDigitChars 10 d.significant.dropLast 0 = rest
  generalize d.significant.getLast given = c at *
  have other : c.toNat ≠ 48 := fun same => beq_eq_false_iff_ne.mp last (Char.toNat_inj.mp same)
  have low : 48 ≤ c.toNat := low
  have high : c.toNat ≤ 57 := high
  show (10 * rest + (c.toNat - 48)) % 10 ≠ 0
  omega

/-- A number of so many significant digits is not smaller. -/
theorem pow_le_lead (h : 0 < d.coefficient) : 10 ^ (d.significant.length - 1) ≤ d.lead := by
  obtain ⟨zeros, value, length⟩ := coefficient_eq d
  have some : 0 < d.significant.length := List.length_pos_iff.mpr (digits_significant h).1
  by_contra less
  have below : d.coefficient < 10 ^ (d.significant.length - 1 + zeros) := by
    rw [value, Nat.pow_add]
    exact Nat.mul_lt_mul_of_pos_right (not_le.mp less) (Nat.pow_pos (by decide))
  rcases Nat.eq_zero_or_pos (d.significant.length - 1 + zeros) with none | more
  · rw [none] at below
    omega
  · have := (Nat.length_toDigits_le_iff (by decide) more).mpr below
    unfold digitsOf at length
    omega

/-- A number of places is the significant digits and then zeros, as the last of the digits is no zero. -/
theorem eq_lead_mul {k drop more zeros : Nat} (h : 0 < d.coefficient)
    (scaled : d.lead * 10 ^ (zeros + drop) = k * 10 ^ more) :
    ∃ tens, zeros + drop = more + tens ∧ k = d.lead * 10 ^ tens := by
  have enough : more ≤ zeros + drop := by
    by_contra less
    have split : 10 ^ more = 10 ^ (more - (zeros + drop) - 1) * 10 * 10 ^ (zeros + drop) := by
      rw [← Nat.pow_succ, ← Nat.pow_add]
      congr 1
      omega
    rw [split, ← Nat.mul_assoc, ← Nat.mul_assoc] at scaled
    have lead := Nat.eq_of_mul_eq_mul_right (Nat.pow_pos (by decide)) scaled
    exact lead_mod_ten h (lead ▸ Nat.mul_mod_left _ 10)
  obtain ⟨tens, sum⟩ := Nat.exists_eq_add_of_le enough
  rw [sum, Nat.pow_add, Nat.mul_comm (10 ^ more), ← Nat.mul_assoc] at scaled
  exact ⟨tens, sum, (Nat.eq_of_mul_eq_mul_right (Nat.pow_pos (by decide)) scaled).symm⟩

/-- **A decimal with few places is written plainly**, with no more places than it has. -/
theorem unsignedValue?_text {k places drop more : Nat} (some : 0 < places) (few : places ≤ 4) (positive : 0 < k)
    (small : k < 10 ^ 15) (value : d.coefficient * 10 ^ drop = k * 10 ^ more)
    (place : d.exponent = (drop : Int) - more - places) :
    unsignedValue? places d.text = .some ((k : ℚ) / 10 ^ places) := by
  have given : 0 < d.coefficient := by
    refine Nat.pos_of_ne_zero fun none => ?_
    rw [none, Nat.zero_mul] at value
    exact (Nat.mul_pos positive (Nat.pow_pos (by decide))).ne value
  obtain ⟨zeros, coefficient, length⟩ := coefficient_eq d
  have scaled : d.lead * 10 ^ (zeros + drop) = k * 10 ^ more := by
    rw [← value, coefficient, Nat.mul_assoc, Nat.pow_add]
  obtain ⟨tens, sum, whole⟩ := eq_lead_mul given scaled
  have point : d.point = d.significant.length + tens - places := by
    unfold Decimal.point
    rw [length, place]
    omega
  have size : d.significant.length - 1 + tens < 15 := by
    refine (Nat.pow_lt_pow_iff_right (a := 10) (by decide)).mp (Nat.lt_of_le_of_lt ?_ small)
    rw [whole, Nat.pow_add]
    exact Nat.mul_le_mul_right _ (pow_le_lead given)
  have digits : 0 < d.significant.length := List.length_pos_iff.mpr (digits_significant given).1
  have read := unsignedValue?_positional (digits_significant given) some point
  unfold text
  dsimp only
  rw [if_pos (by omega), read, whole]
  push_cast
  rfl

end Decimal

end Artboard
