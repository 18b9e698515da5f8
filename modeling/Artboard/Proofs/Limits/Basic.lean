import Artboard.Markup.OfNode
import Artboard.Proofs.Json.Parts
import Artboard.Proofs.Number.Leading
import Artboard.Proofs.Outcome

/-!
# Limits on the numbers of a design

Which faults a design can come to depends on the numbers that it gives.  Limits say which numbers it may give, what
may come out of adding some of them up, and which faults may follow (`Limits`); the laws are one for each kind of
arithmetic in the library.  What every rule comes to within limits follows from these laws alone, for one limit as
for another.

A design within limits gives numbers as numbers and as texts that spell one, anywhere in its values
(`Limits.admits`).  All that a rule takes for a number is then within the limits (`Limits.given_number?`).
-/

namespace Artboard

/-- **Limits**: numbers that a design may give, and the faults that they may lead to. -/
structure Limits where
  /-- the faults that may stop a compilation -/
  allowed : Fault → Prop
  /-- the numbers that a design may give -/
  given : Number → Prop
  /-- what may come out of adding up so many of them -/
  sum : Nat → Number → Prop
  /-- the most that may be added up -/
  most : Nat
  /-- what the numeral at the start of a weight may be read as -/
  numeral : Binary64 → Prop
  one_le_most : 1 ≤ most
  given_small {i : Int} : i.natAbs < 1000 → given (.int i)
  given_truncated {x : Binary64} {i : Int} : given (.real x) → x.truncate? = some i → given (.int i)
  given_wholePart {x : Binary64} :
    numeral x → x ≠ .nan → Yields allowed (fun i => given (.int i)) (Typography.wholePart x)
  sum_zero : sum 0 (.int 0)
  sum_given {n : Number} : given n → sum 1 n
  sum_mono {j k : Nat} {n : Number} : sum j n → j ≤ k → sum k n
  sum_neg {k : Nat} {n : Number} : sum k n → sum k n.neg
  sum_abs {k : Nat} {n : Number} : sum k n → sum k n.abs
  add {k : Nat} {m n : Number} : sum k m → given n → k < most → Yields allowed (sum (k + 1)) (m.add n)
  sub {k : Nat} {m n : Number} : given m → sum k n → k < most → Yields allowed (sum (k + 1)) (m.sub n)
  format {k : Nat} {n : Number} : sum k n → k ≤ most → Passes allowed (n.format 2)
  /-- a channel of a colour -/
  channel {n : Number} : given n → Yields allowed (fun i => Passes allowed (Number.writeInt i)) (Color.channel n)
  /-- the place of a stop -/
  percent {n : Number} : given n → Yields allowed (fun m => Passes allowed (m.format 2)) (n.mul (.int 100))
  /-- the height of a line that follows from the size of a font -/
  spread {n : Number} : given n →
    Yields allowed (fun m => Passes allowed (m.format 2)) (n.mul (.real (Binary64.ofDecimal false ⟨12, -1⟩)))
  /-- a percentage of the size of a font -/
  hundredth {n : Number} : given n → Yields allowed (fun x => Passes allowed (x.format 4)) (n.divNat 100)

namespace Limits

variable {L : Limits} {n d : Number} {v : Value}

/-! ## 1. Numbers written -/

theorem format_given (h : L.given n) : Passes L.allowed (n.format 2) :=
  L.format (L.sum_given h) L.one_le_most

theorem px (h : Passes L.allowed (n.format 2)) : Passes L.allowed n.px := by
  unfold Number.px
  exact h.passes_then

theorem px_given (h : L.given n) : Passes L.allowed n.px := px (format_given h)

/-! ## 2. Designs within limits -/

/-- A value that a design may hold, what is inside it aside. -/
def admits (L : Limits) : Value → Prop
  | .number n => n.isFinite = true → L.given n
  | .text s =>
    (∀ x, Numeral.readNumeral? s = some x → x.isFinite = true → L.given (.real x)) ∧
      ∀ x, Numeral.readNumeral? (String.ofList (Typography.leadingNumeral s.toList)) = some x → L.numeral x
  | _ => True

/-- What a value is taken for is within the limits. -/
theorem given_number? (h : L.admits v) (hn : v.number? = some n) : L.given n := by
  unfold Value.number? at hn
  split at hn
  · cases hn
    exact h rfl
  · split at hn
    · rename_i finite
      cases hn
      exact h finite
    · cases hn
  · split at hn
    · rename_i s x read
      split at hn
      · rename_i finite
        cases hn
        exact h.1 x read finite
      · cases hn
    · cases hn
  · cases hn

theorem given_numberOr (h : L.admits v) (hd : L.given d) : L.given (v.numberOr d) := by
  unfold Value.numberOr
  cases hn : v.number? with
  | none => exact hd
  | some n => exact given_number? h hn

/-- A value with all that is inside it. -/
abbrev Admits (L : Limits) (v : Value) : Prop := Value.Everywhere L.admits v

/-- The fields of a node with all that is inside them. -/
abbrev AdmitsFields (L : Limits) (fields : Members) : Prop := Members.Everywhere L.admits fields

variable {fields : Members}

theorem admits_null : L.Admits .null := Value.everywhere_flat rfl trivial

theorem AdmitsFields.field (h : L.AdmitsFields fields) (name : String) : L.Admits (fields.get name) :=
  h.get trivial name

theorem given_zero : L.given (.int 0) := L.given_small (by decide)

/-- A number of a field, zero where there is none. -/
theorem AdmitsFields.number (h : L.AdmitsFields fields) (name : String) :
    L.given ((fields.get name).numberOr (.int 0)) :=
  given_numberOr (h.field name).self given_zero

theorem Admits.members (h : L.Admits v) : L.AdmitsFields (v.members?.getD []) := by
  cases v with
  | object members => exact Members.everywhere_of_object h
  | _ => exact fun _ he => absurd he List.not_mem_nil

theorem Admits.object {members : Members} (h : L.Admits (.object members)) : L.AdmitsFields members :=
  Members.everywhere_of_object h

/-- The objects in a list are within the limits. -/
theorem Admits.objects (h : L.Admits v) {members : Members} (hm : members ∈ Paint.objects v.items) :
    L.AdmitsFields members := by
  unfold Paint.objects at hm
  obtain ⟨w, hw, found⟩ := List.mem_filterMap.mp hm
  cases v with
  | list items =>
    have inside : L.Admits w := h.item hw
    cases w with
    | object ms =>
      cases found
      exact inside.object
    | _ => cases found
  | _ => exact absurd hw List.not_mem_nil

end Limits

end Artboard
