import Artboard.Json.Value

/-!
# The values inside a value

A rule looks at a value and at values inside it, at any depth.  What is needed of them is said once of all parts of
a value (`Value.parts`), and it goes down to members and items on its own (`Value.Everywhere`).
-/

namespace Artboard

namespace Value

/-! ## 1. Parts -/

mutual

/-- A value and all values inside it. -/
def parts : Value → List Value
  | list items => list items :: partsOfItems items
  | object members => object members :: partsOfMembers members
  | v => [v]

/-- The items of a list and all values inside them. -/
def partsOfItems : List Value → List Value
  | [] => []
  | v :: rest => parts v ++ partsOfItems rest

/-- The members of an object and all values inside them. -/
def partsOfMembers : List (String × Value) → List Value
  | [] => []
  | (_, v) :: rest => parts v ++ partsOfMembers rest

end

theorem mem_parts_self (v : Value) : v ∈ v.parts := by
  cases v <;> simp [parts]

theorem mem_partsOfItems {w : Value} {items : List Value} :
    w ∈ partsOfItems items ↔ ∃ v ∈ items, w ∈ v.parts := by
  induction items with
  | nil => simp [partsOfItems]
  | cons v rest ih => simp [partsOfItems, ih]

theorem mem_partsOfMembers {w : Value} {members : List (String × Value)} :
    w ∈ partsOfMembers members ↔ ∃ e ∈ members, w ∈ e.2.parts := by
  induction members with
  | nil => simp [partsOfMembers]
  | cons e rest ih =>
    obtain ⟨name, v⟩ := e
    simp [partsOfMembers, ih]

/-! ## 2. What holds of all parts -/

/-- All parts of a value have a property. -/
def Everywhere (p : Value → Prop) (v : Value) : Prop := ∀ w ∈ v.parts, p w

instance decidableEverywhere (p : Value → Prop) [DecidablePred p] (v : Value) : Decidable (Everywhere p v) :=
  inferInstanceAs (Decidable (∀ w ∈ v.parts, p w))

variable {p : Value → Prop} {v : Value} {items : List Value} {members : Members}

theorem Everywhere.self (h : Everywhere p v) : p v := h v (mem_parts_self v)

theorem Everywhere.item (h : Everywhere p (list items)) (hv : v ∈ items) : Everywhere p v := by
  intro w hw
  have : w ∈ (list items).parts := by
    rw [parts]
    exact List.mem_cons_of_mem _ (mem_partsOfItems.mpr ⟨v, hv, hw⟩)
  exact h w this

theorem Everywhere.member (h : Everywhere p (object members)) {name : String} (hv : (name, v) ∈ members) :
    Everywhere p v := by
  intro w hw
  have : w ∈ (object members).parts := by
    rw [parts]
    exact List.mem_cons_of_mem _ (mem_partsOfMembers.mpr ⟨(name, v), hv, hw⟩)
  exact h w this

/-- A value without values inside it. -/
theorem everywhere_flat (flat : v.parts = [v]) (h : p v) : Everywhere p v := by
  intro w hw
  rw [flat] at hw
  exact List.mem_singleton.mp hw ▸ h

end Value

theorem Entries.mem_of_get? {α : Type} {es : Entries α} {name : String} {v : α} (h : es.get? name = some v) :
    (name, v) ∈ es := by
  induction es with
  | nil => cases h
  | cons e rest ih =>
    obtain ⟨other, w⟩ := e
    unfold Entries.get? at h
    split at h
    · rename_i same
      rw [same, Option.some.inj h]
      exact List.mem_cons_self
    · exact List.mem_cons_of_mem _ (ih h)

theorem Entries.mem_erase {α : Type} {es : Entries α} {name : String} {e : String × α} (h : e ∈ es.erase name) :
    e ∈ es ∧ e.1 ≠ name := by
  induction es with
  | nil => cases h
  | cons first rest ih =>
    obtain ⟨n, v⟩ := first
    unfold Entries.erase at h
    split at h
    · exact (ih h).imp_left (List.mem_cons_of_mem _)
    · rename_i other
      rcases List.mem_cons.mp h with rfl | h
      · exact ⟨List.mem_cons_self, other⟩
      · exact (ih h).imp_left (List.mem_cons_of_mem _)

namespace Members

open Value

/-- All parts of all members have a property. -/
def Everywhere (p : Value → Prop) (members : Members) : Prop := ∀ e ∈ members, Value.Everywhere p e.2

variable {p : Value → Prop} {members : Members}

theorem everywhere_of_object (h : Value.Everywhere p (object members)) : Everywhere p members :=
  fun e he => h.member (show (e.1, e.2) ∈ members from he)

/-- The value of a name has the property, be it only that of null. -/
theorem Everywhere.get (h : Everywhere p members) (null : p .null) (name : String) :
    Value.Everywhere p (members.get name) := by
  unfold Entries.get
  cases hv : Entries.get? members name with
  | none => exact everywhere_flat rfl null
  | some v => exact h _ (Entries.mem_of_get? hv)

end Members

end Artboard
