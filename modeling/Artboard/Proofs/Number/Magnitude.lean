import Artboard.Proofs.Number.Arithmetic

/-!
# How large the results are

Rounding does not pass a number that needs no rounding: what is at most some number of 53 significant bits is
rounded to at most that number (`roundUnits_le`).  So sums and products of bounded numbers are bounded as if they
were exact.  Numbers are measured in a large number that is still far from the largest double (`Number.large`): what
is at most `2 ^ 20` times it can be added up and written (`Number.passes_format_atMost`).
-/

namespace Artboard

/-! ## 1. Rounding below a number on the grid -/

theorem roundDiv_le {num den n : Nat} (h : num ≤ n * den) : roundDiv num den ≤ n := by
  have below : num / den ≤ n := Nat.div_le_of_le_mul (Nat.mul_comm den n ▸ h)
  rcases Nat.lt_or_eq_of_le below with less | same
  · exact Nat.le_trans (roundDiv_le_succ num den) less
  · -- the quotient is the number itself, and nothing is left over
    have exact : num = n * den := by
      have split := Nat.div_add_mod num den
      rw [same, Nat.mul_comm] at split
      omega
    rcases Nat.eq_zero_or_pos den with none | some
    · rw [none, Nat.mul_zero] at exact
      rw [exact, none]
      exact Nat.zero_le n
    · rw [exact, roundDiv_mul_right n den some]

/-- **Rounding does not pass a number on the grid.** -/
theorem roundUnits_le {num den m s : Nat} (few : m ≤ 2 ^ 53) (h : num ≤ m * 2 ^ s * den) :
    roundUnits num den ≤ m * 2 ^ s := by
  unfold roundUnits
  dsimp only
  generalize shift : (num / den).log2 - 52 = t
  show roundDiv num (den * 2 ^ t) * 2 ^ t ≤ m * 2 ^ s
  by_cases fine : t ≤ s
  · -- the grid of the quotient is at least as fine
    have split : m * 2 ^ s = m * 2 ^ (s - t) * 2 ^ t := by
      rw [Nat.mul_assoc, ← Nat.pow_add, Nat.sub_add_cancel fine]
    have scaled : num ≤ m * 2 ^ (s - t) * (den * 2 ^ t) := by
      calc num ≤ m * 2 ^ s * den := h
        _ = m * 2 ^ (s - t) * (den * 2 ^ t) := by rw [split, Nat.mul_assoc, Nat.mul_comm (2 ^ t) den]
    rw [split]
    exact Nat.mul_le_mul_right _ (roundDiv_le scaled)
  · -- the grid is coarser, but then the quotient has come up to the bound already
    have top : m * 2 ^ s ≤ 2 ^ 52 * 2 ^ t := by
      calc m * 2 ^ s ≤ 2 ^ 53 * 2 ^ s := Nat.mul_le_mul_right _ few
        _ = 2 ^ (53 + s) := by rw [Nat.pow_add]
        _ ≤ 2 ^ (52 + t) := Nat.pow_le_pow_right (by decide) (by omega)
        _ = 2 ^ 52 * 2 ^ t := by rw [Nat.pow_add]
    have scaled : num ≤ 2 ^ 52 * (den * 2 ^ t) := by
      calc num ≤ m * 2 ^ s * den := h
        _ ≤ 2 ^ 52 * 2 ^ t * den := Nat.mul_le_mul_right _ top
        _ = 2 ^ 52 * (den * 2 ^ t) := by rw [Nat.mul_assoc, Nat.mul_comm (2 ^ t) den]
    have positive : num / den ≠ 0 := by
      intro none
      rw [none, Nat.log2_zero] at shift
      omega
    have large : 2 ^ 52 * 2 ^ t ≤ num / den := by
      rw [← Nat.pow_add]
      exact (Nat.le_log2 positive).mp (by omega)
    have below : num / den ≤ m * 2 ^ s := Nat.div_le_of_le_mul (by rwa [Nat.mul_comm] at h)
    calc roundDiv num (den * 2 ^ t) * 2 ^ t ≤ 2 ^ 52 * 2 ^ t := Nat.mul_le_mul_right _ (roundDiv_le scaled)
      _ ≤ num / den := large
      _ ≤ m * 2 ^ s := below

/-! ## 2. Bounded doubles -/

/-- A number far larger than those of a design, and far from the largest double. -/
def Number.large : Nat := Nat.pow 2 1000

namespace Binary64

/-- A finite number that is at most a natural number, without its sign. -/
def AtMost (n : Nat) (x : Binary64) : Prop :=
  ∃ negative units fits, x = .finite negative units fits ∧ units ≤ n * unitsPerOne

variable {k n : Nat} {x y : Binary64}

theorem AtMost.isFinite (h : x.AtMost n) : x.isFinite = true := by
  obtain ⟨s, u, fits, rfl, -⟩ := h
  rfl

theorem AtMost.mono {m : Nat} (h : x.AtMost m) (le : m ≤ n) : x.AtMost n := by
  obtain ⟨s, u, fits, rfl, hu⟩ := h
  exact ⟨s, u, fits, rfl, Nat.le_trans hu (Nat.mul_le_mul_right _ le)⟩

theorem atMost_neg (h : x.AtMost n) : x.neg.AtMost n := by
  obtain ⟨s, u, fits, rfl, hu⟩ := h
  exact ⟨!s, u, fits, rfl, hu⟩

theorem atMost_abs (h : x.AtMost n) : x.abs.AtMost n := by
  obtain ⟨s, u, fits, rfl, hu⟩ := h
  exact ⟨false, u, fits, rfl, hu⟩

theorem atMost_of_rounded (negative : Bool) {num den : Nat} (limit : roundUnits num den < unitsLimit)
    (h : roundUnits num den ≤ n * unitsPerOne) : (ofRatio negative num den).AtMost n :=
  ⟨negative, _, ⟨roundUnits_grid num den, limit⟩, dif_pos limit, h⟩

/-- The large number in units, on the grid. -/
theorem large_units : k * Number.large * unitsPerOne = k * 2 ^ 2074 := by
  have units : Number.large * unitsPerOne = 2 ^ 2074 := by decide +kernel
  rw [Nat.mul_assoc, units]

/-- **What is at most a few times the large number is rounded to at most that.** -/
theorem atMost_ofRatio (negative : Bool) {num den : Nat} (few : k ≤ 2 ^ 20)
    (h : num ≤ k * Number.large * unitsPerOne * den) : (ofRatio negative num den).AtMost (k * Number.large) := by
  have rounded : roundUnits num den ≤ k * Number.large * unitsPerOne := by
    rw [large_units] at h ⊢
    exact roundUnits_le (by omega) h
  have limit : roundUnits num den < unitsLimit := by
    have room : 2 ^ 20 * 2 ^ 2074 < unitsLimit := by decide +kernel
    have bound : k * 2 ^ 2074 ≤ 2 ^ 20 * 2 ^ 2074 := Nat.mul_le_mul_right _ few
    rw [large_units] at rounded
    exact Nat.lt_of_le_of_lt (Nat.le_trans rounded bound) room
  exact atMost_of_rounded negative limit rounded

theorem atMost_zero (negative : Bool) : (zero negative).AtMost n := by
  have least : (zero negative).AtMost (0 * Number.large) := atMost_ofRatio negative (by decide) (Nat.zero_le _)
  exact least.mono (by omega)

theorem atMost_add {j : Nat} (hx : x.AtMost (j * Number.large)) (hy : y.AtMost (k * Number.large))
    (few : j + k ≤ 2 ^ 20) : (x.add y).AtMost ((j + k) * Number.large) := by
  obtain ⟨s, u, _, rfl, hu⟩ := hx
  obtain ⟨t, v, _, rfl, hv⟩ := hy
  unfold add
  dsimp only
  split
  · exact atMost_zero _
  · refine atMost_ofRatio _ few ?_
    have sum : (signedUnits s u + signedUnits t v).natAbs ≤ u + v := by
      have := Int.natAbs_add_le (signedUnits s u) (signedUnits t v)
      rwa [natAbs_signedUnits, natAbs_signedUnits] at this
    rw [Nat.mul_one, Nat.add_mul, Nat.add_mul]
    exact Nat.le_trans sum (Nat.add_le_add hu hv)

/-- Multiplying the large number by a small one. -/
theorem atMost_mul (hx : x.AtMost Number.large) (hy : y.AtMost n) (few : n ≤ 2 ^ 20) :
    (x.mul y).AtMost (n * Number.large) := by
  obtain ⟨s, u, _, rfl, hu⟩ := hx
  obtain ⟨t, v, _, rfl, hv⟩ := hy
  refine atMost_ofRatio _ few ?_
  calc u * v ≤ Number.large * unitsPerOne * (n * unitsPerOne) := Nat.mul_le_mul hu hv
    _ = n * Number.large * unitsPerOne * unitsPerOne := by
      rw [Nat.mul_mul_mul_comm, Nat.mul_comm Number.large n, Nat.mul_assoc (n * Number.large)]

theorem atMost_divNat (hx : x.AtMost (k * Number.large)) (few : k ≤ 2 ^ 20) {d : Nat} (some : 0 < d) :
    (x.divNat d).AtMost (k * Number.large) := by
  obtain ⟨s, u, _, rfl, hu⟩ := hx
  exact atMost_ofRatio _ few (Nat.le_trans hu (Nat.le_mul_of_pos_right _ some))

/-- A whole number as a double. -/
theorem atMost_ofInt {i : Int} (h : i.natAbs ≤ k * Number.large) (few : k ≤ 2 ^ 20) :
    (ofInt i).AtMost (k * Number.large) := by
  refine atMost_ofRatio _ few ?_
  rw [Nat.mul_one]
  exact Nat.mul_le_mul_right _ h

/-- The integers next to a bounded double are bounded. -/
theorem natAbs_truncate? {i : Int} (h : x.AtMost n) (whole : x.truncate? = some i) : i.natAbs ≤ n := by
  obtain ⟨s, u, _, rfl, hu⟩ := h
  rw [← Option.some.inj whole, natAbs_signedUnits]
  exact Nat.div_le_of_le_mul (Nat.mul_comm n unitsPerOne ▸ hu)

theorem yields_bounded_atMost {allowed : Fault → Prop} (h : x.AtMost n) : Yields allowed (AtMost n) x.bounded := by
  obtain ⟨s, u, fits, rfl, hu⟩ := h
  exact .ok ⟨s, u, fits, rfl, hu⟩

/-! ## 3. Writing -/

/-- The digits of a few times the large number, with some places behind the point. -/
theorem length_digitsOf_le {c p : Nat} (few : k ≤ 2 ^ 20) (h : c ≤ k * Number.large * 10 ^ p) :
    (digitsOf c).length ≤ 310 + p := by
  have room : 2 ^ 20 * Number.large < Nat.pow 10 310 := by decide +kernel
  have bound : k * Number.large ≤ 2 ^ 20 * Number.large := Nat.mul_le_mul_right _ few
  -- the power stays as it is: written out it is too long
  generalize most : 310 = d at room ⊢
  have below : c < 10 ^ (d + p) := by
    calc c ≤ k * Number.large * 10 ^ p := h
      _ < 10 ^ d * 10 ^ p := Nat.mul_lt_mul_of_pos_right (Nat.lt_of_le_of_lt bound room) (Nat.pow_pos (by decide))
      _ = 10 ^ (d + p) := (Nat.pow_add 10 d p).symm
  exact (Nat.length_toDigits_le_iff (by decide) (by omega)).mpr below

/-- Some decimal places are taken along into the whole number that is rounded. -/
theorem roundTo_places (negative : Bool) {units : Nat} (fits : Fits units) {p : Nat} (places : p ≤ 400) :
    (finite negative units fits).roundTo p = ofDecimal negative ⟨roundDiv (units * 10 ^ p) unitsPerOne, -p⟩ := by
  have kept : max (-400) (min 400 (p : Int)) = p := by omega
  have taken : Nat.pow 10 (p : Int).toNat = 10 ^ p := rfl
  have none : Nat.pow 10 (-(p : Int)).toNat = 1 := by rw [Int.toNat_eq_zero.mpr (by omega), Nat.pow_eq, Nat.pow_zero]
  unfold roundTo
  dsimp only
  rw [kept, taken, none, Nat.mul_one]

/-- Rounding to decimal places does not make an infinity. -/
theorem atMost_roundTo {p : Nat} (h : x.AtMost (k * Number.large)) (few : k ≤ 2 ^ 20) (places : p ≤ 400) :
    (x.roundTo p).AtMost (k * Number.large) := by
  obtain ⟨s, u, fits, rfl, hu⟩ := h
  have none : Nat.pow 10 (-(p : Int)).toNat = 1 := by rw [Int.toNat_eq_zero.mpr (by omega), Nat.pow_eq, Nat.pow_zero]
  have dropped : Nat.pow 10 (- -(p : Int)).toNat = 10 ^ p := by rw [Int.neg_neg, Int.toNat_natCast, Nat.pow_eq]
  rw [roundTo_places s fits places]
  -- the places taken along are dropped again by the exponent
  have scaled : roundDiv (u * 10 ^ p) unitsPerOne ≤ k * Number.large * 10 ^ p := by
    refine roundDiv_le ?_
    rw [Nat.mul_right_comm]
    exact Nat.mul_le_mul_right _ hu
  generalize roundDiv (u * 10 ^ p) unitsPerOne = c at scaled
  have digits := length_digitsOf_le few scaled
  unfold ofDecimal
  dsimp only
  split
  · exact atMost_zero s
  · split
    · omega
    · split
      · exact atMost_zero s
      · rw [none, dropped, Nat.mul_one]
        refine atMost_ofRatio s few ?_
        rw [Nat.mul_right_comm]
        exact Nat.mul_le_mul_right _ scaled

/-- **What is at most a few times the large number can be written.** -/
theorem passes_format_atMost {allowed : Fault → Prop} {p : Nat} (h : x.AtMost (k * Number.large)) (few : k ≤ 2 ^ 20)
    (places : p ≤ 400) : Passes allowed (x.format p) := by
  obtain ⟨t, v, _, rounded, -⟩ := atMost_roundTo h few places
  obtain ⟨s, u, fits, rfl, -⟩ := h
  unfold format
  dsimp only
  rw [rounded]
  split <;> exact .ok trivial

end Binary64

/-! ## 4. Bounded numbers -/

namespace Number

variable {allowed : Fault → Prop} {j k : Nat} {m n : Number}

/-- A finite number that is at most a natural number, without its sign. -/
def AtMost (bound : Nat) : Number → Prop
  | int i => i.natAbs ≤ bound
  | real x => x.AtMost bound

theorem AtMost.mono {low high : Nat} (h : n.AtMost low) (le : low ≤ high) : n.AtMost high := by
  cases n with
  | int i => exact Nat.le_trans h le
  | real x => exact Binary64.AtMost.mono h le

theorem atMost_neg {bound : Nat} (h : n.AtMost bound) : n.neg.AtMost bound := by
  cases n with
  | int i =>
    show (-i).natAbs ≤ bound
    rw [Int.natAbs_neg]
    exact h
  | real x => exact Binary64.atMost_neg h

theorem atMost_abs {bound : Nat} (h : n.AtMost bound) : n.abs.AtMost bound := by
  cases n with
  | int i =>
    show ((i.natAbs : Int)).natAbs ≤ bound
    rw [Int.natAbs_natCast]
    exact h
  | real x => exact Binary64.atMost_abs h

theorem yields_toDouble_atMost (h : n.AtMost (k * large)) (few : k ≤ 2 ^ 20) :
    Yields allowed (Binary64.AtMost (k * large)) n.toDouble := by
  cases n with
  | int i =>
    unfold toDouble
    exact Binary64.yields_bounded_atMost (Binary64.atMost_ofInt h few)
  | real x => exact .ok h

theorem passes_format_atMost (h : n.AtMost (k * large)) (few : k ≤ 2 ^ 20) : Passes allowed (n.format 2) := by
  unfold format
  exact (yields_toDouble_atMost h few).bind fun x hx => Binary64.passes_format_atMost hx few (p := 2) (by decide)

/-- Sums and differences. -/
theorem yields_combine_atMost {onInts : Int → Int → Int} {onDoubles : Binary64 → Binary64 → Binary64}
    (ints : ∀ a b, (onInts a b).natAbs ≤ a.natAbs + b.natAbs)
    (doubles : ∀ x y : Binary64, x.AtMost (j * large) → y.AtMost (k * large) →
      (onDoubles x y).AtMost ((j + k) * large))
    (hm : m.AtMost (j * large)) (hn : n.AtMost (k * large)) (few : j + k ≤ 2 ^ 20) :
    Yields allowed (AtMost ((j + k) * large)) (combine onInts onDoubles m n) := by
  refine yields_combine (yields_toDouble_atMost hm (by omega)) (yields_toDouble_atMost hn (by omega)) ?_ doubles
  rintro a b rfl rfl
  show (onInts a b).natAbs ≤ (j + k) * large
  rw [Nat.add_mul]
  exact Nat.le_trans (ints a b) (Nat.add_le_add hm hn)

theorem yields_add_atMost (hm : m.AtMost (j * large)) (hn : n.AtMost (k * large)) (few : j + k ≤ 2 ^ 20) :
    Yields allowed (AtMost ((j + k) * large)) (m.add n) :=
  yields_combine_atMost Int.natAbs_add_le (fun _ _ hx hy => Binary64.atMost_add hx hy few) hm hn few

theorem yields_sub_atMost (hm : m.AtMost (j * large)) (hn : n.AtMost (k * large)) (few : j + k ≤ 2 ^ 20) :
    Yields allowed (AtMost ((j + k) * large)) (m.sub n) :=
  yields_combine_atMost Int.natAbs_sub_le
    (fun _ _ hx hy => Binary64.atMost_add hx (Binary64.atMost_neg hy) few) hm hn few

end Number

end Artboard
