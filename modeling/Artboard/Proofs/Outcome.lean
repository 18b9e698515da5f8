import Artboard.Proofs.Run

/-!
# What steps come to

A step that may fail comes to a result or to a fault.  `Yields` says of both at once what they can be: results
have a property and faults are among the allowed ones.  It goes through steps in a row (`Yields.bind`), so that
what a rule can come to follows from what its steps can; and the same for steps that count and note fonts
(`Compile.Yields`).  Where no fault is allowed, a step that yields something does not fail (`Yields.succeeds`).
-/

namespace Artboard

/-! ## 1. Computations -/

/-- **A step comes to a result with a property, or to an allowed fault.** -/
structure Yields {α : Type} (allowed : Fault → Prop) (P : α → Prop) (x : Except Fault α) : Prop where
  result : ∀ a, x = .ok a → P a
  fault : ∀ f, x = .error f → allowed f

/-- A step comes to any result, or to an allowed fault. -/
abbrev Passes {α : Type} (allowed : Fault → Prop) (x : Except Fault α) : Prop := Yields allowed (fun _ => True) x

namespace Yields

variable {α β : Type} {allowed : Fault → Prop} {P : β → Prop} {Q : α → Prop} {x : Except Fault α}
  {f : α → Except Fault β}

theorem ok {a : α} (h : Q a) : Yields allowed Q (.ok a) := ⟨fun _ same => Except.ok.inj same ▸ h, nofun⟩

theorem error {fault : Fault} (h : allowed fault) : Yields allowed Q (.error fault) :=
  ⟨nofun, fun _ same => Except.error.inj same ▸ h⟩

theorem bind (first : Yields allowed Q x) (next : ∀ a, Q a → Yields allowed P (f a)) :
    Yields allowed P (x >>= f) := by
  cases x with
  | error fault => exact error (first.fault fault rfl)
  | ok a => exact next a (first.result a rfl)

theorem mono {R : α → Prop} (h : Yields allowed Q x) (weaker : ∀ a, Q a → R a) : Yields allowed R x :=
  ⟨fun a same => weaker a (h.result a same), h.fault⟩

/-- A result made of the result of a step. -/
theorem then_ok {g : α → β} (h : Yields allowed Q x) (next : ∀ a, Q a → P (g a)) :
    Yields allowed P (x >>= fun a => pure (g a)) :=
  h.bind fun a ha => ok (next a ha)

/-- A result made of the result of a step, where nothing is asked of it. -/
theorem passes_then {g : α → β} (h : Yields allowed Q x) : Passes allowed (x >>= fun a => pure (g a)) :=
  h.then_ok fun _ _ => trivial

theorem map {g : α → β} (h : Yields allowed Q x) (next : ∀ a, Q a → P (g a)) : Yields allowed P (g <$> x) := by
  cases x with
  | error fault => exact error (h.fault fault rfl)
  | ok a => exact ok (next a (h.result a rfl))

/-- Where no fault is allowed there is a result. -/
theorem succeeds (h : Yields (fun _ => False) Q x) : ∃ a, x = .ok a ∧ Q a := by
  cases x with
  | error fault => exact (h.fault fault rfl).elim
  | ok a => exact ⟨a, rfl, h.result a rfl⟩

end Yields

/-! ## 2. Compilations -/

namespace Compile

/-- A step of a compilation comes to a result with a property, or to an allowed fault, whatever came before. -/
def Yields {α : Type} (allowed : Fault → Prop) (P : α → Prop) (x : Compile α) : Prop :=
  ∀ p, Artboard.Yields allowed P (x.runFrom p).1

/-- A step of a compilation comes to any result, or to an allowed fault. -/
abbrev Passes {α : Type} (allowed : Fault → Prop) (x : Compile α) : Prop := Yields allowed (fun _ => True) x

variable {α β : Type} {allowed : Fault → Prop} {P : β → Prop} {Q : α → Prop} {x : Compile α} {f : α → Compile β}

theorem Yields.bind (first : Yields allowed Q x) (next : ∀ a, Q a → Yields allowed P (f a)) :
    Yields allowed P (x >>= f) := by
  intro p
  have result := first p
  rw [runFrom_bind]
  rcases hx : x.runFrom p with ⟨fault | a, q⟩
  · rw [hx] at result
    exact .error (result.fault fault rfl)
  · rw [hx] at result
    exact next a (result.result a rfl) q

theorem Yields.pure {a : α} (h : Q a) : Yields allowed Q (pure a) := fun _ => .ok h

theorem Yields.lift {e : Except Fault α} (h : Artboard.Yields allowed Q e) : Yields allowed Q (liftM e : Compile α) :=
  fun _ => h

/-- A result made of the result of a step, where nothing is asked of it. -/
theorem Yields.passes_then {g : α → β} (h : Yields allowed Q x) : Passes allowed (x >>= fun a => Pure.pure (g a)) :=
  h.bind fun _ _ => .pure trivial

/-- Giving out a number does not fail. -/
theorem passes_nextId : Passes allowed nextId := fun _ => .ok trivial

/-- A change of the progress does not fail. -/
theorem passes_modify (g : Progress → Progress) : Passes allowed (modify g) := fun _ => .ok trivial

end Compile

end Artboard
