import Artboard.Markup.Progress

/-!
# Runs of steps

Most rules of the library are sequences of steps that can fail.  A sequence that comes to an end has come to
the end of each of its steps (`ok_of_bind`, and `Compile.bind_ok` for steps that count and note fonts), so
that a proof about a rule can take its steps apart one by one.

Two sequences that do the same step by step, but for results that are only related, fail or come to their ends
together (`Matched`, and `Compile.Paired` for steps that count and note fonts).
-/

namespace Artboard

/-! ## 1. One run -/

/-- Two steps in a row succeed if both of them do. -/
theorem ok_of_bind {ε α β : Type} {x : Except ε α} {f : α → Except ε β} {b : β}
    (h : (x >>= f) = .ok b) : ∃ a, x = .ok a ∧ f a = .ok b := by
  cases x with
  | error e => cases h
  | ok a => exact ⟨a, rfl, h⟩

/-- What follows a step that has succeeded. -/
theorem ok_bind {α β : Type} (a : α) (f : α → Except Fault β) : (Except.ok a >>= f) = f a := rfl

namespace Compile

variable {α β : Type}

/-- A run of two steps in a row. -/
theorem runFrom_bind (x : Compile α) (f : α → Compile β) (p : Progress) :
    (x >>= f).runFrom p = match x.runFrom p with
      | (.ok a, q) => (f a).runFrom q
      | (.error e, q) => (.error e, q) := by
  have h : (x >>= f).runFrom p = (ExceptT.bindCont f (x.runFrom p).1).run (x.runFrom p).2 := rfl
  rw [h]
  rcases x.runFrom p with ⟨e | a, q⟩ <;> rfl

/-- Two steps in a row come to an end if both of them do. -/
theorem bind_ok {x : Compile α} {f : α → Compile β} {p r : Progress} {b : β}
    (h : (x >>= f).runFrom p = (.ok b, r)) :
    ∃ a q, x.runFrom p = (.ok a, q) ∧ (f a).runFrom q = (.ok b, r) := by
  rw [runFrom_bind] at h
  rcases hx : x.runFrom p with ⟨e | a, q⟩
  · rw [hx] at h
    simp at h
  · rw [hx] at h
    exact ⟨a, q, rfl, h⟩

/-- A step that only computes leaves the progress as it is. -/
theorem lift_ok {e : Except Fault α} {p q : Progress} {a : α}
    (h : (liftM e : Compile α).runFrom p = (.ok a, q)) : e = .ok a ∧ q = p := by
  have h' : (e, p) = (.ok a, q) := h
  exact ⟨congrArg Prod.fst h', (congrArg Prod.snd h').symm⟩

theorem lift_bind_ok {e : Except Fault α} {f : α → Compile β} {p r : Progress} {b : β}
    (h : ((liftM e : Compile α) >>= f).runFrom p = (.ok b, r)) :
    ∃ a, e = .ok a ∧ (f a).runFrom p = (.ok b, r) := by
  obtain ⟨a, q, ha, hf⟩ := bind_ok h
  obtain ⟨he, rfl⟩ := lift_ok ha
  exact ⟨a, he, hf⟩

/-- What follows a step that only computes needs to agree on what it computes. -/
theorem lift_bind_congr {e : Except Fault α} {f g : α → Compile β} (h : ∀ a, e = .ok a → f a = g a) :
    ((liftM e : Compile α) >>= f) = ((liftM e : Compile α) >>= g) := by
  cases e with
  | error fault => rfl
  | ok a => exact h a rfl

theorem pure_ok {p q : Progress} {a b : α} (h : (pure a : Compile α).runFrom p = (.ok b, q)) :
    a = b ∧ q = p := by
  cases h
  exact ⟨rfl, rfl⟩

/-- A run that is seen to end with something. -/
theorem exists_ok {x : Compile (Option α)} {p : Progress}
    (h : ((x.runFrom p).1.toOption.join).isSome = true) : ∃ a q, x.runFrom p = (.ok (some a), q) := by
  rcases hx : x.runFrom p with ⟨outcome, q⟩
  rw [hx] at h
  cases outcome with
  | error e => cases h
  | ok found =>
    cases found with
    | none => cases h
    | some a => exact ⟨a, q, rfl⟩

/-- A run that is seen to end with something of which something is known. -/
theorem exists_ok_of_map {x : Compile (Option α)} {p : Progress} {f : α → β} {b : β}
    (h : (x.runFrom p).1.toOption.join.map f = some b) : ∃ a q, x.runFrom p = (.ok (some a), q) ∧ f a = b := by
  have ends : ((x.runFrom p).1.toOption.join).isSome = true := by
    rw [← Option.isSome_map, h]
    rfl
  obtain ⟨a, q, run⟩ := exists_ok ends
  rw [run] at h
  exact ⟨a, q, run, Option.some.inj h⟩

end Compile

/-! ## 2. Two runs -/

/-- **Two computations that cannot be told apart** but by their results, which are related: both fail with the same
fault or both come to an end. -/
inductive Matched {α β : Type} (R : α → β → Prop) : Except Fault α → Except Fault β → Prop where
  | error (fault : Fault) : Matched R (.error fault) (.error fault)
  | ok {a b} (related : R a b) : Matched R (.ok a) (.ok b)

namespace Matched

variable {α β γ δ : Type} {R : α → β → Prop} {S : γ → δ → Prop} {x : Except Fault α} {y : Except Fault β}

theorem bind {f : α → Except Fault γ} {g : β → Except Fault δ} (first : Matched R x y)
    (next : ∀ a b, R a b → Matched S (f a) (g b)) : Matched S (x >>= f) (y >>= g) := by
  cases first with
  | error fault => exact .error fault
  | ok related => exact next _ _ related

/-- Equal computations whose results are related to themselves. -/
theorem of_eq {x y : Except Fault α} {Q : α → α → Prop} (same : x = y) (h : ∀ a, Q a a) : Matched Q x y := by
  subst same
  cases x with
  | error fault => exact .error fault
  | ok a => exact .ok (h a)

/-- What follows two related computations is the same if it is so for all related results. -/
theorem bind_eq {f : α → Except Fault γ} {g : β → Except Fault γ} (first : Matched R x y)
    (next : ∀ a b, R a b → f a = g b) : (x >>= f) = (y >>= g) := by
  cases first with
  | error fault => rfl
  | ok related => exact next _ _ related

end Matched

namespace Compile

variable {α β : Type}

/-- **Two steps that cannot be told apart** but by their results, which are related: from every progress both
fail with the same fault or both come to an end, and they leave the same progress. -/
def Paired (R : α → β → Prop) (x : Compile α) (y : Compile β) : Prop :=
  ∀ p, (∃ fault q, x.runFrom p = (.error fault, q) ∧ y.runFrom p = (.error fault, q)) ∨
    ∃ a b q, x.runFrom p = (.ok a, q) ∧ y.runFrom p = (.ok b, q) ∧ R a b

namespace Paired

variable {γ δ : Type} {R : α → β → Prop} {S : γ → δ → Prop} {x : Compile α} {y : Compile β}

theorem pure {a : α} {b : β} (h : R a b) : Paired R (pure a) (pure b) :=
  fun p => .inr ⟨a, b, p, rfl, rfl, h⟩

theorem same {Q : α → α → Prop} (h : ∀ a, Q a a) (x : Compile α) : Paired Q x x := by
  intro p
  rcases hx : x.runFrom p with ⟨fault | a, q⟩
  · exact .inl ⟨fault, q, rfl, rfl⟩
  · exact .inr ⟨a, a, q, rfl, rfl, h a⟩

theorem bind {f : α → Compile γ} {g : β → Compile δ} (first : Paired R x y)
    (next : ∀ a b, R a b → Paired S (f a) (g b)) : Paired S (x >>= f) (y >>= g) := by
  intro p
  rw [runFrom_bind, runFrom_bind]
  rcases first p with ⟨fault, q, hx, hy⟩ | ⟨a, b, q, hx, hy, related⟩
  · rw [hx, hy]
    exact .inl ⟨fault, q, rfl, rfl⟩
  · rw [hx, hy]
    exact next a b related q

/-- What follows the same step on both sides. -/
theorem bind_same {f : α → Compile γ} {g : α → Compile δ} (x : Compile α)
    (next : ∀ a, Paired S (f a) (g a)) : Paired S (x >>= f) (x >>= g) :=
  (same (fun _ => rfl) x : Paired Eq x x).bind fun a _ h => h ▸ next a

/-- What follows a computation, which the result can be told from. -/
theorem bind_lift {f : α → Compile γ} {g : α → Compile δ} {e : Except Fault α}
    (next : ∀ a, e = .ok a → Paired S (f a) (g a)) :
    Paired S ((liftM e : Compile α) >>= f) ((liftM e : Compile α) >>= g) := by
  cases e with
  | error fault => exact fun p => .inl ⟨fault, p, rfl, rfl⟩
  | ok a => exact next a rfl

theorem imp {Q : α → β → Prop} (h : Paired R x y) (weaker : ∀ a b, R a b → Q a b) : Paired Q x y :=
  fun p => (h p).imp_right fun ⟨a, b, q, hx, hy, related⟩ => ⟨a, b, q, hx, hy, weaker a b related⟩

/-- Where one of the two comes to an end, so does the other. -/
theorem ends {p q : Progress} {a : α} (h : Paired R x y) (run : x.runFrom p = (.ok a, q)) :
    ∃ b, y.runFrom p = (.ok b, q) ∧ R a b := by
  rcases h p with ⟨fault, r, hx, -⟩ | ⟨a', b, r, hx, hy, related⟩
  · cases run.symm.trans hx
  · cases run.symm.trans hx
    exact ⟨b, hy, related⟩

end Paired

end Compile

end Artboard
