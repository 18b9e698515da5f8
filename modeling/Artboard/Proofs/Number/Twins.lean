import Artboard.Proofs.Design.Likeness
import Artboard.Proofs.Number.Arithmetic

/-!
# Whole numbers in two forms

A whole number can be given as it is or as a double (`Number.Means`).  As long as all numbers have at most 53 bits, no
rule can tell the two forms apart: sums and differences of either form are the same whole number again, the forms
compare alike, and they are written alike, zeros of both signs among them.  So whole numbers up to a bound are a
likeness of numbers, if no more are added up than fit into 53 bits (`Likeness.twins`).
-/

namespace Artboard

namespace Binary64

theorem signedUnits_mul (s : Bool) (n k : Nat) : signedUnits s (n * k) = signedUnits s n * k := by
  unfold signedUnits
  split
  · rw [Int.natCast_mul, Int.neg_mul]
  · rw [Int.natCast_mul]

theorem signedUnits_natAbs (i : Int) : signedUnits (decide (i < 0)) i.natAbs = i := by
  unfold signedUnits
  split
  · rename_i negative
    have := of_decide_eq_true negative
    omega
  · rename_i positive
    have : ¬i < 0 := fun negative => positive (decide_eq_true negative)
    omega

theorem signedUnits_neg (s : Bool) (n : Nat) : signedUnits (!s) n = -signedUnits s n := by
  cases s
  · rfl
  · exact (Int.neg_neg _).symm

end Binary64

namespace Number

open Binary64

/-! ## 1. The two forms -/

/-- **The number is this whole number**, as it is or as a double; zero may have a sign. -/
def Means (i : Int) (n : Number) : Prop := n.place? = some (.units (i * unitsPerOne))

variable {i j : Int} {m n : Number} {x y : Binary64}

theorem means_int (i : Int) : (int i).Means i := rfl

theorem unitsPerOne_ne_zero : (unitsPerOne : Int) ≠ 0 := by
  have := unitsPerOne_pos
  omega

theorem Means.int_eq (h : (int j).Means i) : j = i :=
  Int.eq_of_mul_eq_mul_right unitsPerOne_ne_zero (Place.units.inj (Option.some.inj h))

theorem means_finite {s : Bool} {units k : Nat} {fits : Fits units} (whole : units = k * unitsPerOne)
    (value : signedUnits s k = i) : (real (.finite s units fits)).Means i := by
  have place : signedUnits s units = i * unitsPerOne := by rw [whole, signedUnits_mul, value]
  exact congrArg (some ∘ Place.units) place

/-- A double that is a whole number. -/
theorem Means.finite (h : (real x).Means i) : ∃ s units fits,
    x = .finite s units fits ∧ units = i.natAbs * unitsPerOne ∧ signedUnits s i.natAbs = i := by
  cases x with
  | nan => cases h
  | infinity s => cases s <;> cases h
  | finite s units fits =>
    have place : signedUnits s units = i * unitsPerOne := Place.units.inj (Option.some.inj h)
    have whole : units = i.natAbs * unitsPerOne := by
      have size := congrArg Int.natAbs place
      rwa [natAbs_signedUnits, Int.natAbs_mul, Int.natAbs_natCast] at size
    refine ⟨s, units, fits, rfl, whole, Int.eq_of_mul_eq_mul_right unitsPerOne_ne_zero ?_⟩
    rw [← signedUnits_mul, ← whole, place]

/-- A whole number of at most 53 bits is a double. -/
theorem ofRatio_whole (negative : Bool) {k : Nat} (few : k < 2 ^ 53) : ∃ units fits,
    ofRatio negative (k * unitsPerOne) 1 = .finite negative units fits ∧ units = k * unitsPerOne := by
  have kept : roundUnits (k * unitsPerOne) 1 = k * unitsPerOne := by
    rw [roundUnits_units, roundUnits_of_log2_le (log2_le few)]
  have limit : roundUnits (k * unitsPerOne) 1 < unitsLimit := by
    rw [kept]
    exact lt_unitsLimit few
  unfold ofRatio
  rw [dif_pos limit]
  exact ⟨_, _, rfl, kept⟩

theorem means_ofRatio (negative : Bool) {k : Nat} (few : k < 2 ^ 53) (value : signedUnits negative k = i) :
    (real (ofRatio negative (k * unitsPerOne) 1)).Means i := by
  obtain ⟨units, fits, double, whole⟩ := ofRatio_whole negative few
  rw [double]
  exact means_finite whole value

/-- The double that a whole number is rounded to, where it is not too large. -/
theorem Means.toDouble (h : n.Means i) (few : i.natAbs < 2 ^ 53) : ∃ x, n.toDouble = .ok x ∧ (real x).Means i := by
  cases n with
  | int j =>
    obtain rfl := h.int_eq
    obtain ⟨units, fits, double, whole⟩ := ofRatio_whole (decide (j < 0)) few
    refine ⟨.finite (decide (j < 0)) units fits, ?_, means_finite whole (signedUnits_natAbs j)⟩
    unfold Number.toDouble ofInt
    dsimp only
    rw [double]
    rfl
  | real x => exact ⟨x, rfl, h⟩

/-! ## 2. Arithmetic -/

theorem means_neg (h : n.Means i) : n.neg.Means (-i) := by
  cases n with
  | int j =>
    obtain rfl := h.int_eq
    exact means_int _
  | real x =>
    obtain ⟨s, units, fits, rfl, whole, value⟩ := h.finite
    exact means_finite whole (by rw [signedUnits_neg, value])

theorem means_abs (h : n.Means i) : n.abs.Means i.natAbs := by
  cases n with
  | int j =>
    obtain rfl := h.int_eq
    exact means_int _
  | real x =>
    obtain ⟨s, units, fits, rfl, whole, value⟩ := h.finite
    exact means_finite whole rfl

/-- A sum of doubles. -/
theorem means_addDoubles (hx : (real x).Means i) (hy : (real y).Means j) (few : (i + j).natAbs < 2 ^ 53) :
    (real (x.add y)).Means (i + j) := by
  obtain ⟨s, u, fits, rfl, hu, first⟩ := hx.finite
  obtain ⟨t, v, fits', rfl, hv, second⟩ := hy.finite
  have sum : signedUnits s u + signedUnits t v = (i + j) * unitsPerOne := by
    rw [hu, hv, signedUnits_mul, signedUnits_mul, first, second, Int.add_mul]
  unfold Binary64.add
  dsimp only
  rw [sum]
  split
  · rename_i none
    have none : i + j = 0 := (Int.mul_eq_zero.mp none).resolve_right unitsPerOne_ne_zero
    rw [none]
    have zero := means_ofRatio (i := 0) (s && t) (k := 0) (by decide) (by cases s && t <;> rfl)
    rwa [Nat.zero_mul] at zero
  · have sign : decide ((i + j) * unitsPerOne < 0) = decide (i + j < 0) := by
      have below : (i + j) * unitsPerOne < 0 * unitsPerOne ↔ i + j < 0 :=
        Int.mul_lt_mul_right (Int.natCast_pos.mpr unitsPerOne_pos)
      rw [Int.zero_mul] at below
      exact decide_eq_decide.mpr below
    rw [sign, Int.natAbs_mul, Int.natAbs_natCast]
    exact means_ofRatio _ few (signedUnits_natAbs _)

/-- Numbers are combined in one form or the other. -/
theorem means_combine {onInts : Int → Int → Int} {onDoubles : Binary64 → Binary64 → Binary64}
    (hm : m.Means i) (hn : n.Means j) (first : i.natAbs < 2 ^ 53) (second : j.natAbs < 2 ^ 53)
    (doubles : ∀ x y, (real x).Means i → (real y).Means j → (real (onDoubles x y)).Means (onInts i j)) :
    ∃ r, combine onInts onDoubles m n = .ok r ∧ r.Means (onInts i j) := by
  obtain ⟨x, double, hx⟩ := hm.toDouble first
  obtain ⟨y, double', hy⟩ := hn.toDouble second
  unfold combine
  split
  · obtain rfl := hm.int_eq
    obtain rfl := hn.int_eq
    exact ⟨_, rfl, means_int _⟩
  · rw [double, ok_bind, double', ok_bind]
    exact ⟨_, rfl, doubles x y hx hy⟩

theorem means_add (hm : m.Means i) (hn : n.Means j) (first : i.natAbs < 2 ^ 53) (second : j.natAbs < 2 ^ 53)
    (few : (i + j).natAbs < 2 ^ 53) : ∃ r, m.add n = .ok r ∧ r.Means (i + j) :=
  means_combine hm hn first second fun _ _ hx hy => means_addDoubles hx hy few

theorem means_sub (hm : m.Means i) (hn : n.Means j) (first : i.natAbs < 2 ^ 53) (second : j.natAbs < 2 ^ 53)
    (few : (i - j).natAbs < 2 ^ 53) : ∃ r, m.sub n = .ok r ∧ r.Means (i - j) :=
  means_combine hm hn first second fun _ _ hx hy => means_addDoubles hx (means_neg hy) few

theorem Means.lt_eq (hm : m.Means i) (hn : n.Means j) : m.lt n = decide (i < j) := by
  have hm : m.place? = some (.units (i * unitsPerOne)) := hm
  have hn : n.place? = some (.units (j * unitsPerOne)) := hn
  have positive : (0 : Int) < unitsPerOne := Int.natCast_pos.mpr unitsPerOne_pos
  unfold lt
  rw [hm, hn]
  exact decide_eq_decide.mpr (Int.mul_lt_mul_right positive)

theorem Means.isZero_eq (h : n.Means i) : n.isZero = decide (i = 0) := by
  cases n with
  | int j =>
    obtain rfl := h.int_eq
    exact beq_eq_decide j 0
  | real x =>
    obtain ⟨s, units, fits, rfl, whole, -⟩ := h.finite
    have none : units = 0 ↔ i = 0 := by
      rw [whole, Nat.mul_eq_zero, or_iff_left unitsPerOne_pos.ne', Int.natAbs_eq_zero]
    show (units == 0) = decide (i = 0)
    rw [beq_eq_decide]
    exact decide_eq_decide.mpr none

/-- **A whole number of at most 53 bits is written the same in both forms.** -/
theorem Means.format_eq (h : n.Means i) (few : i.natAbs < 2 ^ 53) : n.format 2 = .ok (toString i) := by
  obtain ⟨x, double, hx⟩ := h.toDouble few
  obtain ⟨s, units, fits, rfl, whole, value⟩ := hx.finite
  unfold Number.format
  rw [double, ok_bind, format_finite whole, value]

end Number

/-! ## 3. A likeness of the two forms -/

namespace Likeness

open Number

/-- One number more does not have too many bits. -/
theorem few_bits {k bound most : Nat} {i j : Int} (room : most * bound < 2 ^ 53) (small : i.natAbs ≤ k * bound)
    (given : j.natAbs ≤ 1 * bound) (few : k < most) :
    i.natAbs + j.natAbs ≤ (k + 1) * bound ∧ (k + 1) * bound < 2 ^ 53 := by
  have whole : (k + 1) * bound ≤ most * bound := Nat.mul_le_mul_right bound few
  have split : (k + 1) * bound = k * bound + 1 * bound := Nat.add_mul k 1 bound
  omega

/-- **Whole numbers are alike in both forms**: those given are at most the bound, and sums of so many of them have at
most 53 bits. -/
def twins (bound most : Nat) (room : most * bound < 2 ^ 53) : Likeness where
  like k m n := ∃ i : Int, i.natAbs ≤ k * bound ∧ m.Means i ∧ n.Means i
  most := most
  zero := ⟨0, Nat.zero_le _, means_int 0, means_int 0⟩
  mono := by
    rintro j k m n ⟨i, small, hm, hn⟩ le
    exact ⟨i, Nat.le_trans small (Nat.mul_le_mul_right bound le), hm, hn⟩
  neg := by
    rintro k m n ⟨i, small, hm, hn⟩
    exact ⟨-i, (Int.natAbs_neg i).symm ▸ small, means_neg hm, means_neg hn⟩
  abs := by
    rintro k m n ⟨i, small, hm, hn⟩
    exact ⟨i.natAbs, small, means_abs hm, means_abs hn⟩
  add := by
    rintro k m n a b ⟨i, small, hm, hn⟩ ⟨j, given, ha, hb⟩ few
    obtain ⟨size, bits⟩ := few_bits room small given few
    obtain ⟨r, sum, hr⟩ := means_add hm ha (by omega) (by omega) (by omega)
    obtain ⟨r', sum', hr'⟩ := means_add hn hb (by omega) (by omega) (by omega)
    rw [sum, sum']
    exact .ok ⟨i + j, by omega, hr, hr'⟩
  sub := by
    rintro k m n a b ⟨j, given, ha, hb⟩ ⟨i, small, hm, hn⟩ few
    obtain ⟨size, bits⟩ := few_bits room small given few
    obtain ⟨r, difference, hr⟩ := means_sub ha hm (by omega) (by omega) (by omega)
    obtain ⟨r', difference', hr'⟩ := means_sub hb hn (by omega) (by omega) (by omega)
    rw [difference, difference']
    exact .ok ⟨j - i, by omega, hr, hr'⟩
  lt := by
    rintro j k m n a b ⟨i, -, ha, hb⟩ ⟨l, -, hm, hn⟩
    rw [ha.lt_eq hm, hb.lt_eq hn]
  isZero := by
    rintro k m n ⟨i, -, hm, hn⟩
    rw [hm.isZero_eq, hn.isZero_eq]
  format := by
    rintro k m n ⟨i, small, hm, hn⟩ few
    have bits : i.natAbs < 2 ^ 53 := by
      have := Nat.mul_le_mul_right bound few
      omega
    rw [hm.format_eq bits, hn.format_eq bits]

end Likeness

end Artboard
