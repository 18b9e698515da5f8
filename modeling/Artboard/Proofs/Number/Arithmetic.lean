import Artboard.Proofs.Number.Whole
import Artboard.Proofs.Outcome

/-!
# Arithmetic without NaN

Finite numbers are added, multiplied and divided to numbers that may be infinite, but are never NaN; nor does adding
a finite number to what came of others make NaN of an infinity (`Binary64.add_ne_nan`).  So the only fault that a
computation with finite numbers can come to is that a number is too large (`Fault.IsOverflow`), when it is rounded
to a double, to an integer, or written (`Number.passes_format`).
-/

namespace Artboard

/-- A number was too large. -/
def Fault.IsOverflow (f : Fault) : Prop := f = .tooLarge

namespace Binary64

/-! ## 1. Doubles -/

variable {x y : Binary64}

theorem natAbs_signedUnits (negative : Bool) (n : Nat) : (signedUnits negative n).natAbs = n := by
  unfold signedUnits
  split
  · exact (Int.natAbs_neg _).trans (Int.natAbs_natCast n)
  · exact Int.natAbs_natCast n

theorem ne_nan_of_isFinite (h : x.isFinite = true) : x ≠ .nan := by
  intro same
  rw [same] at h
  cases h

theorem neg_ne_nan (h : x ≠ .nan) : x.neg ≠ .nan := by
  cases x with
  | nan => exact absurd rfl h
  | _ => exact nofun

theorem abs_ne_nan (h : x ≠ .nan) : x.abs ≠ .nan := by
  cases x with
  | nan => exact absurd rfl h
  | _ => exact nofun

/-- Adding a finite number never makes NaN. -/
theorem add_ne_nan (hx : x ≠ .nan) (hy : y ≠ .nan) (finite : x.isFinite = true ∨ y.isFinite = true) :
    x.add y ≠ .nan := by
  cases x with
  | nan => exact absurd rfl hx
  | infinity s =>
    cases y with
    | nan => exact absurd rfl hy
    | infinity t => rcases finite with h | h <;> cases h
    | finite t v fits => exact nofun
  | finite s u fits =>
    cases y with
    | nan => exact absurd rfl hy
    | infinity t => exact nofun
    | finite t v fits =>
      unfold add
      dsimp only
      split
      · exact ofRatio_ne_nan _ _ _
      · exact ofRatio_ne_nan _ _ _

theorem mul_ne_nan (hx : x.isFinite = true) (hy : y.isFinite = true) : x.mul y ≠ .nan := by
  cases x with
  | finite s u fits =>
    cases y with
    | finite t v fits => exact ofRatio_ne_nan _ _ _
    | _ => cases hy
  | _ => cases hx

theorem divNat_ne_nan (hx : x.isFinite = true) (n : Nat) : x.divNat n ≠ .nan := by
  cases x with
  | finite s u fits => exact ofRatio_ne_nan _ _ _
  | _ => cases hx

/-- What is not NaN is finite, or too large. -/
theorem yields_bounded (h : x ≠ .nan) : Yields Fault.IsOverflow (fun x => x.isFinite = true) x.bounded := by
  cases x with
  | nan => exact absurd rfl h
  | infinity s => exact .error rfl
  | finite s u fits => exact .ok rfl

/-- What is not NaN is written, or too large. -/
theorem passes_format (h : x ≠ .nan) (places : Int) : Passes Fault.IsOverflow (x.format places) := by
  cases x with
  | nan => exact absurd rfl h
  | infinity s => exact .error rfl
  | finite s u fits =>
    unfold format
    dsimp only
    split
    · exact .ok trivial
    · split
      · exact .error rfl
      · exact .ok trivial

end Binary64

namespace Number

/-! ## 2. Whole numbers and doubles -/

variable {allowed : Fault → Prop} {m n : Number}

/-- Two numbers are combined as whole ones, or as doubles that they are both rounded to. -/
theorem yields_combine {onInts : Int → Int → Int} {onDoubles : Binary64 → Binary64 → Binary64}
    {P Q : Binary64 → Prop} {R : Number → Prop} (hm : Yields allowed P m.toDouble) (hn : Yields allowed Q n.toDouble)
    (ints : ∀ a b, m = .int a → n = .int b → R (.int (onInts a b)))
    (doubles : ∀ x y, P x → Q y → R (.real (onDoubles x y))) :
    Yields allowed R (combine onInts onDoubles m n) := by
  unfold combine
  split
  · rename_i a b
    exact .ok (ints a b rfl rfl)
  · refine hm.bind fun x hx => ?_
    exact hn.then_ok fun y hy => doubles x y hx hy

theorem passes_writeInt {i : Int} (h : i.natAbs < Nat.pow 10 maxDigits) :
    Passes allowed (writeInt i) := by
  unfold writeInt
  rw [if_pos h]
  exact .ok trivial

theorem yields_toDouble (h : n.isFinite = true) :
    Yields Fault.IsOverflow (fun x => x.isFinite = true) n.toDouble := by
  cases n with
  | int i =>
    unfold toDouble
    exact Binary64.yields_bounded (Binary64.ofRatio_ne_nan _ _ _)
  | real x => exact .ok h

theorem yields_toDouble_ne_nan (h : n ≠ .real .nan) : Yields Fault.IsOverflow (· ≠ .nan) n.toDouble := by
  cases n with
  | int i => exact (yields_toDouble rfl).mono fun x hx => Binary64.ne_nan_of_isFinite hx
  | real x => exact .ok fun same => h (congrArg real same)

theorem ne_nan_of_isFinite (h : n.isFinite = true) : n ≠ .real .nan := by
  intro same
  rw [same] at h
  cases h

/-- **What is not NaN is written, or too large.** -/
theorem passes_format (h : n ≠ .real .nan) (places : Int) : Passes Fault.IsOverflow (n.format places) := by
  unfold format
  exact (yields_toDouble_ne_nan h).bind fun x hx => Binary64.passes_format hx places

theorem neg_ne_nan (h : n ≠ .real .nan) : n.neg ≠ .real .nan := by
  cases n with
  | int i => exact nofun
  | real x =>
    intro same
    exact Binary64.neg_ne_nan (fun hx => h (congrArg real hx)) (real.inj same)

theorem abs_ne_nan (h : n ≠ .real .nan) : n.abs ≠ .real .nan := by
  cases n with
  | int i => exact nofun
  | real x =>
    intro same
    exact Binary64.abs_ne_nan (fun hx => h (congrArg real hx)) (real.inj same)

theorem yields_add (hm : m ≠ .real .nan) (hn : n.isFinite = true) :
    Yields Fault.IsOverflow (· ≠ .real .nan) (m.add n) :=
  yields_combine (yields_toDouble_ne_nan hm) (yields_toDouble hn) (fun _ _ _ _ => nofun) fun _ _ hx hy same =>
    Binary64.add_ne_nan hx (Binary64.ne_nan_of_isFinite hy) (.inr hy) (real.inj same)

theorem yields_sub (hm : m.isFinite = true) (hn : n ≠ .real .nan) :
    Yields Fault.IsOverflow (· ≠ .real .nan) (m.sub n) :=
  yields_combine (yields_toDouble hm) (yields_toDouble_ne_nan hn) (fun _ _ _ _ => nofun) fun _ _ hx hy same =>
    Binary64.add_ne_nan (Binary64.ne_nan_of_isFinite hx) (Binary64.neg_ne_nan hy) (.inl hx) (real.inj same)

theorem yields_mul (hm : m.isFinite = true) (hn : n.isFinite = true) :
    Yields Fault.IsOverflow (· ≠ .real .nan) (m.mul n) :=
  yields_combine (yields_toDouble hm) (yields_toDouble hn) (fun _ _ _ _ => nofun) fun _ _ hx hy same =>
    Binary64.mul_ne_nan hx hy (real.inj same)

theorem yields_divNat (hm : m.isFinite = true) (d : Nat) :
    Yields Fault.IsOverflow (· ≠ .nan) (m.divNat d) := by
  cases m with
  | int i =>
    unfold divNat
    have finite := Binary64.yields_bounded (Binary64.ofRatio_ne_nan (decide (i < 0)) (i.natAbs * unitsPerOne) d)
    exact finite.mono fun x hx => Binary64.ne_nan_of_isFinite hx
  | real x => exact .ok (Binary64.divNat_ne_nan hm d)

end Number

end Artboard
