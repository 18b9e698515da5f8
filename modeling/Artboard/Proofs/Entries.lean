import Artboard.Entries
import Mathlib.Data.List.Nodup

/-!
# Names of entries

Which names entries have after one is put or erased, or others are merged in (`Entries.mem_names_put`,
`Entries.mem_names_erase`, `Entries.mem_names_merge`), and in which order: erasing keeps it, and what is new comes
last (`Entries.names_merge_of_nodup`).  Each name stays there once (`Entries.nodup_put`, `Entries.nodup_merge`), so
that a merged name has one value (`Entries.get?_merge_of_nodup`), and so has one among entries that are kept
(`Entries.get?_filter`).
-/

namespace Artboard

namespace Entries

variable {α : Type}

theorem names_cons (e : String × α) (rest : Entries α) : names (e :: rest) = e.1 :: names rest := rfl

theorem mem_names_put {es : Entries α} {name n : String} {v : α} :
    n ∈ (es.put name v).names ↔ n = name ∨ n ∈ es.names := by
  induction es with
  | nil => simp [put, names]
  | cons e rest ih =>
    obtain ⟨m, w⟩ := e
    unfold put
    split
    · rename_i hm
      subst hm
      rw [names_cons, names_cons, List.mem_cons, or_self_left]
    · rw [names_cons, names_cons, List.mem_cons, List.mem_cons, ih, or_left_comm]

/-- Erasing a name takes it out of the names and leaves the order of the others. -/
theorem names_erase (es : Entries α) (name : String) :
    (es.erase name).names = es.names.filter fun n => decide (n ≠ name) := by
  induction es with
  | nil => rfl
  | cons e rest ih =>
    obtain ⟨m, w⟩ := e
    unfold erase
    split
    · rename_i hm
      rw [ih, names_cons, List.filter_cons_of_neg (by simpa using hm)]
    · rename_i hm
      rw [names_cons, names_cons, ih, List.filter_cons_of_pos (by simpa using hm)]

theorem mem_names_erase {es : Entries α} {name n : String} :
    n ∈ (es.erase name).names ↔ n ∈ es.names ∧ n ≠ name := by
  rw [names_erase, List.mem_filter, decide_eq_true_eq]

theorem mem_names_merge {es more : Entries α} {n : String} :
    n ∈ (es.merge more).names ↔ n ∈ es.names ∨ n ∈ more.names := by
  induction more generalizing es with
  | nil => exact ⟨.inl, fun h => h.resolve_right List.not_mem_nil⟩
  | cons e rest ih =>
    have step : n ∈ (es.merge (e :: rest)).names ↔ n ∈ (es.put e.1 e.2).names ∨ n ∈ names rest := ih
    rw [step, mem_names_put, names_cons, List.mem_cons, or_assoc, or_left_comm]

theorem mem_names_iff {es : Entries α} {name : String} : name ∈ es.names ↔ (es.get? name).isSome = true := by
  induction es with
  | nil => simp [names, get?]
  | cons e rest ih =>
    obtain ⟨m, w⟩ := e
    rw [names_cons, List.mem_cons, ih]
    by_cases hm : m = name
    · simp [get?, hm]
    · simp [get?, hm, Ne.symm hm]

/-- A name that is not there has no value. -/
theorem get?_eq_none {es : Entries α} {name : String} (h : name ∉ es.names) : es.get? name = none :=
  Option.not_isSome_iff_eq_none.mp fun there => h (mem_names_iff.mpr there)

/-- A value put under a name that is not there comes last. -/
theorem put_new {es : Entries α} {name : String} (h : name ∉ es.names) (v : α) : es.put name v = es ++ [(name, v)] := by
  induction es with
  | nil => rfl
  | cons e rest ih =>
    obtain ⟨m, w⟩ := e
    have hm : m ≠ name := fun heq => h (heq ▸ List.mem_cons_self)
    unfold put
    rw [if_neg hm, ih fun hr => h (List.mem_cons_of_mem _ hr)]
    rfl

/-- A value put under a name that is there changes no name. -/
theorem names_put {es : Entries α} {name : String} (h : name ∈ es.names) (v : α) :
    (es.put name v).names = es.names := by
  induction es with
  | nil => exact absurd h List.not_mem_nil
  | cons e rest ih =>
    obtain ⟨m, w⟩ := e
    unfold put
    split
    · rfl
    · rename_i hm
      have later : name ∈ names rest := (List.mem_cons.mp h).resolve_left fun same => hm same.symm
      exact congrArg (m :: ·) (ih later)

/-- Names stay in front of what is put behind them. -/
theorem prefix_names_put (es : Entries α) (name : String) (v : α) : es.names <+: (es.put name v).names := by
  by_cases h : name ∈ es.names
  · exact ⟨[], (List.append_nil _).trans (names_put h v).symm⟩
  · rw [put_new h]
    unfold names
    rw [List.map_append]
    exact List.prefix_append _ _

theorem prefix_names_merge (es more : Entries α) : es.names <+: (es.merge more).names := by
  induction more generalizing es with
  | nil => exact List.prefix_rfl
  | cons e rest ih => exact (prefix_names_put es e.1 e.2).trans (ih _)

/-- Where no name comes twice, the new names of what is merged in come last, in their order. -/
theorem names_merge_of_nodup {es more : Entries α} (h : more.names.Nodup) :
    (es.merge more).names = es.names ++ more.names.filter fun n => decide (n ∉ es.names) := by
  induction more generalizing es with
  | nil => exact (List.append_nil _).symm
  | cons e rest ih =>
    obtain ⟨m, v⟩ := e
    obtain ⟨fresh, others⟩ := List.nodup_cons.mp h
    have step : (es.merge ((m, v) :: rest)).names =
        (es.put m v).names ++ (names rest).filter fun n => decide (n ∉ (es.put m v).names) := ih others
    -- no later name is the one just put, so the later ones are new to `es` as well
    have same : ((names rest).filter fun n => decide (n ∉ (es.put m v).names)) =
        (names rest).filter fun n => decide (n ∉ es.names) := by
      refine List.filter_congr fun n hn => ?_
      have other : n ≠ m := fun heq => fresh (heq ▸ hn)
      simp [mem_names_put, other]
    rw [step, same, names_cons]
    by_cases hm : m ∈ es.names
    · rw [names_put hm, List.filter_cons_of_neg (by simpa using hm)]
    · rw [put_new hm, List.filter_cons_of_pos (by simpa using hm)]
      simp [names]

theorem nodup_put {es : Entries α} (h : es.names.Nodup) (name : String) (v : α) :
    (es.put name v).names.Nodup := by
  induction es with
  | nil => exact List.nodup_cons.mpr ⟨List.not_mem_nil, List.nodup_nil⟩
  | cons e rest ih =>
    obtain ⟨m, w⟩ := e
    obtain ⟨fresh, others⟩ := List.nodup_cons.mp h
    unfold put
    split
    · exact h
    · rename_i hm
      refine List.nodup_cons.mpr ⟨fun mem => ?_, ih others⟩
      rcases mem_names_put.mp mem with rfl | mem
      · exact hm rfl
      · exact fresh mem

theorem nodup_erase {es : Entries α} (h : es.names.Nodup) (name : String) : (es.erase name).names.Nodup := by
  induction es with
  | nil => exact h
  | cons e rest ih =>
    obtain ⟨m, w⟩ := e
    obtain ⟨fresh, others⟩ := List.nodup_cons.mp h
    unfold erase
    split
    · exact ih others
    · exact List.nodup_cons.mpr ⟨fun mem => fresh (mem_names_erase.mp mem).1, ih others⟩

theorem nodup_merge {es : Entries α} (h : es.names.Nodup) (more : Entries α) :
    (es.merge more).names.Nodup := by
  induction more generalizing es with
  | nil => exact h
  | cons e rest ih => exact ih (nodup_put h e.1 e.2)

/-- Putting an entry leaves every other one as it is. -/
theorem get?_put_of_ne {es : Entries α} {name other : String} {v : α} (apart : name ≠ other) :
    (es.put name v).get? other = es.get? other :=
  (get?_put es name other v).trans (if_neg apart)

/-- And so does erasing one. -/
theorem get?_erase_of_ne {es : Entries α} {name other : String} (apart : name ≠ other) :
    (es.erase name).get? other = es.get? other :=
  (get?_erase es name other).trans (if_neg apart)

/-- Merging leaves alone what it has no name for. -/
theorem get?_merge {es more : Entries α} {name : String} (h : name ∉ more.names) :
    (es.merge more).get? name = es.get? name := by
  induction more generalizing es with
  | nil => rfl
  | cons e rest ih =>
    have he : e.1 ≠ name := fun heq => h (heq ▸ List.mem_cons_self)
    exact (ih fun hr => h (List.mem_cons_of_mem _ hr)).trans (get?_put_of_ne he)

/-- Where no name comes twice, what is merged in comes first. -/
theorem get?_merge_of_nodup {es more : Entries α} (h : more.names.Nodup) (name : String) :
    (es.merge more).get? name = (more.get? name).or (es.get? name) := by
  induction more generalizing es with
  | nil => rfl
  | cons e rest ih =>
    obtain ⟨m, v⟩ := e
    obtain ⟨fresh, others⟩ := List.nodup_cons.mp h
    have step : (Entries.merge es ((m, v) :: rest)).get? name =
        (Entries.get? rest name).or ((es.put m v).get? name) := ih others
    rw [step, get?_put]
    by_cases hm : m = name
    · subst hm
      rw [get?_eq_none fresh, if_pos rfl]
      simp [get?]
    · rw [if_neg hm]
      simp [get?, hm]

/-- What comes first is found first. -/
theorem get?_append (es more : Entries α) (name : String) :
    get? (es ++ more) name = (get? es name).or (get? more name) := by
  induction es with
  | nil => rfl
  | cons e rest ih =>
    obtain ⟨m, w⟩ := e
    rw [List.cons_append, get?, get?]
    split
    · rfl
    · exact ih

/-- Where no name comes twice, a value that is kept is found, and a name whose value is not kept has none. -/
theorem get?_filter {es : Entries α} (h : es.names.Nodup) (kept : String × α → Bool) (name : String) :
    get? (es.filter kept) name = (es.get? name).filter fun v => kept (name, v) := by
  induction es with
  | nil => rfl
  | cons e rest ih =>
    obtain ⟨m, w⟩ := e
    obtain ⟨fresh, others⟩ := List.nodup_cons.mp h
    rw [List.filter_cons]
    by_cases hm : m = name
    · subst hm
      have none : Entries.get? (rest.filter kept) m = none := by rw [ih others, get?_eq_none fresh]; rfl
      by_cases hk : kept (m, w) = true
      · simp [get?, Option.filter, hk]
      · simp [get?, Option.filter, hk, none]
    · have later : Entries.get? ((m, w) :: rest) name = Entries.get? rest name := by simp [get?, hm]
      rw [later, ← ih others]
      split
      · simp [get?, hm]
      · rfl

end Entries

end Artboard
