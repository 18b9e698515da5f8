import Artboard.Proofs.Number.Nearest
import Artboard.Proofs.Number.Notation

/-!
# The fewest digits of a short decimal

A double that came of a decimal with at most fifteen digits is written as this decimal.  Two decimals on one grid that
both read back as the double differ by less than a step of the grid, if the double has no more than fifteen digits on
it, and so are one (`eq_of_near`).  Hence every grid of up to fifteen digits that has a hit at all has the given
decimal for it (`gridHit?_eq`), and the grid of fifteen digits has one (`isSome_gridHit?`): the first one that has is
`shortest` (`shortest_eq`).
-/

namespace Artboard

/-! ## 1. Reading back -/

/-- The neighbour that is taken reads back. -/
theorem reads_of_nearerHit? (reads : Nat → Bool) {low rest grid c : Nat}
    (h : nearerHit? (reads low) (reads (low + 1)) low rest grid = some c) : reads c = true := by
  unfold nearerHit? at h
  split at h
  · rename_i lowReads highReads
    have either : c = low ∨ c = low + 1 := by
      have := Option.some.inj h
      split_ifs at this <;> omega
    rcases either with rfl | rfl
    · exact lowReads
    · exact highReads
  · rename_i lowReads _
    exact Option.some.inj h ▸ lowReads
  · rename_i _ highReads
    exact Option.some.inj h ▸ highReads
  · cases h

/-- One of the neighbours is taken if one reads back. -/
theorem isSome_nearerHit? (reads : Nat → Bool) {low rest grid c : Nat} (h : reads c = true)
    (near : c = low ∨ c = low + 1) : (nearerHit? (reads low) (reads (low + 1)) low rest grid).isSome := by
  unfold nearerHit?
  rcases near with rfl | rfl
  · rw [h]
    cases reads (c + 1) <;> rfl
  · rw [h]
    cases reads low <;> rfl

theorem readsBack_of_gridHit? {units drop c : Nat} (h : gridHit? units drop = some c) :
    readsBack units drop c = true :=
  reads_of_nearerHit? (readsBack units drop) h

theorem pow_five_pos (n : Nat) : 0 < Nat.pow 5 n := Nat.pow_pos (by decide)

/-- **What reads back is near the exact value.** -/
theorem distance_of_readsBack {units drop c : Nat} (large : 2 ^ 52 ≤ units) (h : readsBack units drop c = true) :
    2 ^ 53 * distance (exactCoefficient units) (c * 10 ^ drop) ≤ exactCoefficient units := by
  unfold readsBack at h
  unfold exactCoefficient
  generalize 1074 = n at h ⊢
  have rounded : roundUnits (c * 10 ^ drop) (Nat.pow 5 n) = units := eq_of_beq h
  have error := roundUnits_error (pow_five_pos n) (rounded.symm ▸ large)
  rwa [rounded] at error

/-- **Two numbers on one grid that are near the same are one.** -/
theorem eq_of_near {exact grid a b : Nat} (fine : exact < 10 ^ 15 * grid) (onGrid : grid ∣ a) (onGrid' : grid ∣ b)
    (near : 2 ^ 53 * distance exact a ≤ exact) (near' : 2 ^ 53 * distance exact b ≤ exact) : a = b := by
  unfold distance at near near'
  obtain ⟨m, rfl⟩ := onGrid
  obtain ⟨n, rfl⟩ := onGrid'
  have apart {i j : Nat} (less : i < j) : grid * i + grid ≤ grid * j := by
    rw [← Nat.mul_succ]
    exact Nat.mul_le_mul_left grid less
  rcases Nat.lt_trichotomy m n with less | rfl | less
  · have := apart less
    omega
  · rfl
  · have := apart less
    omega

/-! ## 2. The first grid with a hit -/

section Short

variable {units k q : Nat} (large : 2 ^ 52 ≤ units) (reads : readsBack units q k = true)

include large reads

/-- A hit on a grid of up to fifteen digits is the decimal that reads back. -/
theorem gridHit?_eq {drop c : Nat} (short : exactCoefficient units < 10 ^ 15 * 10 ^ q)
    (digits : exactCoefficient units < 10 ^ 15 * 10 ^ drop) (hit : gridHit? units drop = some c) :
    c * 10 ^ drop = k * 10 ^ q := by
  have near := distance_of_readsBack large (readsBack_of_gridHit? hit)
  have near' := distance_of_readsBack large reads
  -- both lie on the finer one of the two grids
  rcases Nat.le_total drop q with finer | coarser
  · exact eq_of_near digits (Dvd.intro_left c rfl) ((Nat.pow_dvd_pow 10 finer).trans (Dvd.intro_left k rfl)) near near'
  · exact eq_of_near short ((Nat.pow_dvd_pow 10 coarser).trans (Dvd.intro_left c rfl)) (Dvd.intro_left k rfl) near near'

/-- A grid of up to fifteen digits on which the decimal lies has a hit. -/
theorem isSome_gridHit? {drop : Nat} (finer : drop ≤ q) (digits : exactCoefficient units < 10 ^ 15 * 10 ^ drop) :
    (gridHit? units drop).isSome := by
  have near := distance_of_readsBack large reads
  have decimal : k * 10 ^ (q - drop) * 10 ^ drop = k * 10 ^ q := by
    rw [Nat.mul_assoc, ← Nat.pow_add, Nat.sub_add_cancel finer]
  have reads' : readsBack units drop (k * 10 ^ (q - drop)) = true := by
    unfold readsBack at reads ⊢
    exact decimal.symm ▸ reads
  rw [← decimal] at near
  unfold gridHit?
  refine isSome_nearerHit? (readsBack units drop) reads' ?_
  generalize exactCoefficient units = exact at near digits
  generalize k * 10 ^ (q - drop) = c at near
  have positive : 0 < 10 ^ drop := Nat.pow_pos (by decide)
  show c = exact / 10 ^ drop ∨ c = exact / 10 ^ drop + 1
  generalize 10 ^ drop = grid at *
  -- less than a step of the grid apart
  unfold distance at near
  have split := Nat.div_add_mod' exact grid
  have rest := Nat.mod_lt exact positive
  generalize exact / grid = low at *
  rcases Nat.lt_trichotomy c low with below | same | above
  · have := Nat.mul_le_mul_right grid (Nat.succ_le_of_lt below)
    rw [Nat.succ_mul] at this
    omega
  · exact .inl same
  · rcases Nat.eq_or_lt_of_le (Nat.succ_le_of_lt above) with next | beyond
    · exact .inr next.symm
    · have := Nat.mul_le_mul_right grid (Nat.succ_le_of_lt beyond)
      rw [Nat.succ_mul, Nat.succ_mul] at this
      omega

/-- **A double is written as the decimal of at most fifteen digits that reads back as it.** -/
theorem shortest_eq (short : exactCoefficient units < 10 ^ 15 * 10 ^ q) :
    ∃ c drop : Nat, shortest units = ⟨c, (drop : Int) - 1074⟩ ∧ c * 10 ^ drop = k * 10 ^ q := by
  unfold shortest
  dsimp only
  have positive : 0 < (digitsOf (exactCoefficient units)).length := Nat.length_toDigits_pos
  have most : exactCoefficient units < 10 ^ (digitsOf (exactCoefficient units)).length :=
    (Nat.length_toDigits_le_iff (by decide) positive).mp le_rfl
  have least : (digitsOf (exactCoefficient units)).length ≤ 15 + q := by
    rw [← Nat.pow_add] at short
    exact (Nat.length_toDigits_le_iff (by decide) (by omega)).mpr short
  generalize (digitsOf (exactCoefficient units)).length = length at *
  have digits {i : Nat} (few : i < 15) : exactCoefficient units < 10 ^ 15 * 10 ^ (length - (i + 1)) := by
    rw [← Nat.pow_add]
    exact Nat.lt_of_lt_of_le most (Nat.pow_le_pow_right (by decide) (by omega))
  have grids : List.range 17 = List.range 15 ++ [15, 16] := by decide
  -- the search ends at the grid of fifteen digits, if not before
  have some : ((List.range 15).findSome? fun i => (gridHit? units (length - (i + 1))).map fun c =>
      (⟨c, ((length - (i + 1) : Nat) : Int) - 1074⟩ : Decimal)).isSome := by
    refine List.findSome?_isSome_iff.mpr ⟨14, by decide, ?_⟩
    rw [Option.isSome_map]
    exact isSome_gridHit? large reads (by omega) (digits (by decide))
  obtain ⟨d, found⟩ := Option.isSome_iff_exists.mp some
  rw [grids, List.findSome?_append, found, Option.some_or, Option.getD_some]
  obtain ⟨i, few, here⟩ := List.exists_of_findSome?_eq_some found
  obtain ⟨c, hit, rfl⟩ := Option.map_eq_some_iff.mp here
  exact ⟨c, _, rfl, gridHit?_eq large reads short (digits (List.mem_range.mp few)) hit⟩

end Short

end Artboard
