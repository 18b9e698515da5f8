import Artboard.Proofs.Limits.Request
import Artboard.Proofs.Number.Arithmetic

/-!
# Building a component of any request

Whatever a request without problems holds, in fields with and without a rule of their own, a component comes out of
it, or nothing was submitted, or a number was too large (`Component.build_accepted`).  No rule meets a value of a
kind that it cannot do with, nor NaN: these are the limits of all finite numbers (`Limits.finite`).  The whole numbers
among them have a few hundred digits less than are written, since a channel of a colour is multiplied before it is.
-/

namespace Artboard

namespace Number

/-! ## 1. Finite numbers -/

/-- A finite number, and a whole one of at most 4000 digits. -/
def IsShort : Number → Prop
  | int i => i.natAbs < Nat.pow 10 4000
  | real x => x.isFinite = true

theorem IsShort.isFinite {n : Number} (h : n.IsShort) : n.isFinite = true := by
  cases n with
  | int i => rfl
  | real x => exact h

/-- The units of a double have few digits. -/
theorem unitsLimit_le : unitsLimit ≤ Nat.pow 10 4000 := by decide +kernel

/-- Three more digits can be written. -/
theorem thousandfold_le : Nat.pow 10 4000 * 1000 ≤ Nat.pow 10 maxDigits := by decide +kernel

end Number

namespace Binary64

variable {x : Binary64} {i : Int}

/-- The integer part of a double has few digits. -/
theorem isShort_truncate? (h : x.truncate? = some i) : (Number.int i).IsShort := by
  cases x with
  | finite s u fits =>
    rw [← Option.some.inj h]
    show (signedUnits s (u / unitsPerOne)).natAbs < Nat.pow 10 4000
    rw [natAbs_signedUnits]
    have part : u / unitsPerOne ≤ u := Nat.div_le_self u unitsPerOne
    exact Nat.lt_of_le_of_lt part (Nat.lt_of_lt_of_le fits.2 Number.unitsLimit_le)
  | _ => cases h

/-- The nearest integer of a double has few digits. -/
theorem writes_roundToInt (h : x ≠ .nan) :
    Yields Fault.IsOverflow (fun i => Passes Fault.IsOverflow (Number.writeInt i)) (Number.real x).roundToInt := by
  cases x with
  | nan => exact absurd rfl h
  | infinity s => exact .error rfl
  | finite s u fits =>
    refine .ok (Number.passes_writeInt ?_)
    rw [natAbs_signedUnits]
    have near : roundDiv u unitsPerOne ≤ u / unitsPerOne + 1 := roundDiv_le_succ u unitsPerOne
    have part : u / unitsPerOne ≤ u := Nat.div_le_self u unitsPerOne
    have few : u < Nat.pow 10 4000 := Nat.lt_of_lt_of_le fits.2 Number.unitsLimit_le
    have more := Number.thousandfold_le
    generalize Nat.pow 10 4000 = low at few more
    generalize Nat.pow 10 Number.maxDigits = high at more ⊢
    omega

end Binary64

namespace Limits

open Number

/-! ## 2. The limits -/

theorem writes_channel {n : Number} (h : n.IsShort) :
    Yields Fault.IsOverflow (fun i => Passes Fault.IsOverflow (Number.writeInt i)) (Color.channel n) := by
  unfold Color.channel
  cases n with
  | int i =>
    have short : i.natAbs < Nat.pow 10 4000 := h
    refine .ok (passes_writeInt ?_)
    rw [Int.natAbs_mul]
    have more := thousandfold_le
    generalize Nat.pow 10 4000 = low at short more
    generalize Nat.pow 10 maxDigits = high at more ⊢
    show i.natAbs * 255 < high
    omega
  | real x =>
    -- the product of a double is one
    have product : Yields Fault.IsOverflow (fun m => ∃ y, m = .real y ∧ y ≠ .nan) ((real x).mul (.int 255)) :=
      yields_combine (yields_toDouble h.isFinite) (yields_toDouble rfl) (fun _ _ same => nomatch same)
        fun y z hy hz => ⟨y.mul z, rfl, Binary64.mul_ne_nan hy hz⟩
    refine product.bind fun m hm => ?_
    obtain ⟨y, rfl, hy⟩ := hm
    exact Binary64.writes_roundToInt hy

/-- **All finite numbers**, for any number of levels. -/
def finite (levels : Nat) : Limits where
  allowed := Fault.IsOverflow
  given := IsShort
  sum _ n := n ≠ .real .nan
  most := levels + 2
  numeral _ := True
  one_le_most := by omega
  given_small h := by
    have room : 1000 ≤ Nat.pow 10 4000 := by decide +kernel
    exact Nat.lt_of_lt_of_le h room
  given_truncated _ whole := Binary64.isShort_truncate? whole
  given_wholePart {x} _ _ := by
    unfold Typography.wholePart
    cases whole : x.truncate? with
    | none => exact .error rfl
    | some i => exact .ok (Binary64.isShort_truncate? whole)
  sum_zero := nofun
  sum_given h := ne_nan_of_isFinite h.isFinite
  sum_mono h _ := h
  sum_neg h := neg_ne_nan h
  sum_abs h := abs_ne_nan h
  add hm hn _ := yields_add hm hn.isFinite
  sub hm hn _ := yields_sub hm.isFinite hn
  format h _ := passes_format h 2
  channel h := writes_channel h
  percent h := (yields_mul h.isFinite rfl).mono fun m hm => passes_format hm 2
  spread h := by
    have ratio : (real (Binary64.ofDecimal false ⟨12, -1⟩)).isFinite = true := by decide +kernel
    exact (yields_mul h.isFinite ratio).mono fun m hm => passes_format hm 2
  hundredth h := (yields_divNat h.isFinite 100).mono fun x hx => Binary64.passes_format hx 4

/-- Whatever is finite is within these limits. -/
theorem accepts_finite {levels : Nat} {v : Value}
    (short : ∀ i, v = .number (.int i) → i.natAbs < Nat.pow 10 4000) : (finite levels).accepts v := by
  refine ⟨?_, fun x _ finite => finite⟩
  cases v with
  | number n =>
    cases n with
    | int i => exact fun _ => short i rfl
    | real x => exact fun finite => finite
  | text s => exact ⟨fun x _ finite => finite, fun _ _ => trivial⟩
  | _ => exact trivial

end Limits

namespace Component

/-! ## 3. Building -/

variable {request : Members} {nodes : List Value}

/-- A request without problems submits no nodes if its data are empty. -/
theorem nodes_eq_nil (read : Request.nodes request = .ok nodes) : nodes = [] ↔ (request.get "data").items = [] := by
  unfold Request.nodes at read
  unfold Entries.get
  split at read
  · rename_i none
    cases read
    rw [none]
    exact ⟨fun _ => rfl, fun _ => rfl⟩
  · rename_i vs found
    rw [found]
    split at read
    · cases read
      cases vs with
      | nil => exact ⟨fun _ => rfl, fun _ => rfl⟩
      | cons v rest => exact ⟨nofun, nofun⟩
    · cases read
  · cases read

/-- Nothing submitted is told. -/
theorem build_nil (world : FontWorld) (session : FontSession) :
    ((build world (.list [])).run session).1 = .error .noData := rfl

/-- **A component can be built of every request without problems**, unless nothing was submitted or a number is too
large.  Nothing else stops it, whatever there is in the fields of the nodes, as long as no whole number has more
than 4000 digits; and nothing submitted stops it in every case. -/
theorem build_accepted (read : Request.nodes request = .ok nodes)
    (short : ∀ i, Value.number (.int i) ∈ (Value.object request).parts → i.natAbs < Nat.pow 10 4000)
    (world : FontWorld) (session : FontSession) :
    ((request.get "data").items = [] ∧ ((build world (.list nodes)).run session).1 = .error .noData) ∨
      ((request.get "data").items ≠ [] ∧
        ((∃ c, ((build world (.list nodes)).run session).1 = .ok c) ∨
          ((build world (.list nodes)).run session).1 = .error .tooLarge)) := by
  by_cases none : nodes = []
  · refine .inl ⟨(nodes_eq_nil read).mp none, ?_⟩
    rw [none]
    exact build_nil world session
  · refine .inr ⟨mt (nodes_eq_nil read).mpr none, ?_⟩
    have within : Value.Everywhere (Limits.finite (Node.levelsIn (Node.ofValues nodes))).accepts (.object request) :=
      fun v hv => Limits.accepts_finite fun i same => short i (same ▸ hv)
    have outcome := Limits.passes_build read none within (Nat.le_refl _) world session
    rcases run : ((build world (.list nodes)).run session).1 with fault | c
    · exact .inr (congrArg _ (outcome.fault fault run))
    · exact .inl ⟨c, rfl⟩

/-- A text whose fields are of other kinds than its rules look for. -/
def oddRequest : Members :=
  [("data", .list [.object [("name", .text "Odd"), ("type", .text "TEXT"), ("textContent", .text "Hi"),
    ("width", .text "1e2"), ("height", .bool true), ("x", .text "-Infinity"), ("fills", .text "red"),
    ("strokes", .list [.list []]), ("effects", .list [.null, .object [("type", .text "DROP_SHADOW"),
      ("offset", .list [])]]), ("rotation", .object []), ("fontName", .bool false),
    ("fontWeight", .text "\u0661\u0662.5 bold"), ("lineHeight", .object [("unit", .null), ("value", .text "nan")]),
    ("letterSpacing", .list [.number (.int 3)]), ("cornerRadius", .text "round")]])]

theorem build_accepted_odd : ∃ nodes, Request.nodes oddRequest = .ok nodes ∧ ∀ world session,
    (∃ c, ((build world (.list nodes)).run session).1 = .ok c) ∨
      ((build world (.list nodes)).run session).1 = .error .tooLarge := by
  have short : ∀ i, Value.number (.int i) ∈ (Value.object oddRequest).parts → i.natAbs < Nat.pow 10 4000 := by
    intro i hi
    have three : i = 3 := by simpa [oddRequest, Value.parts, Value.partsOfMembers, Value.partsOfItems] using hi
    rw [three]
    decide +kernel
  have proper : (Request.nodes oddRequest).toBool = true := by decide +kernel
  cases read : Request.nodes oddRequest with
  | error problems =>
    rw [read] at proper
    cases proper
  | ok nodes =>
    refine ⟨nodes, rfl, fun world session => ?_⟩
    rcases build_accepted read short world session with ⟨none, -⟩ | ⟨-, outcome⟩
    · cases none
    · exact outcome

end Component

end Artboard
