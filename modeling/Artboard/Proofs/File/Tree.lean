import Artboard.File.Tree
import Mathlib.Data.List.Basic

/-!
# What stands where in a file tree

Changes to a file tree are seen at its places: at each there is a file with its text, or a directory, or nothing
(`FileTree.kindAt?`).  A tree set at a place is there afterwards with all that is in it, and nothing changes
elsewhere (`FileTree.at?_set`, `FileTree.kindAt?_set_aside`); so it is with a file removed (`FileTree.kindAt?_remove`).
A place can be set where the directory that it is in is there (`FileTree.Room`).
-/

namespace Artboard

namespace FileTree

/-- A file with its text, or a directory. -/
inductive Kind where
  | file (text : String)
  | directory
  deriving DecidableEq, Repr

/-- What a tree is. -/
def kind : FileTree → Kind
  | file s => .file s
  | directory _ => .directory

/-- What stands at a place. -/
def kindAt? (t : FileTree) (p : Place) : Option Kind := (t.at? p).map kind

/-- A place is the root, or the directory that it is in is there. -/
def Room (t : FileTree) (p : Place) : Prop := p = [] ∨ t.kindAt? p.dropLast = some .directory

variable {t u new : FileTree} {p q : Place} {name s : String} {es : List (String × FileTree)} {k : Kind}

/-! ## 1. Places -/

theorem at?_directory_cons : (directory es).at? (name :: q) = (Entries.get? es name).bind (·.at? q) := by
  cases found : Entries.get? es name with
  | none => simp only [at?, found, Option.bind_none]
  | some below => simp only [at?, found, Option.bind_some]

@[simp] theorem kindAt?_nil : t.kindAt? [] = some t.kind := rfl

@[simp] theorem kindAt?_file_cons : (file s).kindAt? (name :: q) = none := rfl

@[simp] theorem kindAt?_directory_cons :
    (directory es).kindAt? (name :: q) = (Entries.get? es name).bind (·.kindAt? q) := by
  unfold kindAt?
  rw [at?_directory_cons]
  cases Entries.get? es name <;> rfl

@[simp] theorem kind_directory : (directory es).kind = .directory := rfl

@[simp] theorem kind_file : (file s).kind = .file s := rfl

theorem at?_append (t : FileTree) (p q : Place) : t.at? (p ++ q) = (t.at? p).bind (·.at? q) := by
  induction p generalizing t with
  | nil => rfl
  | cons name p ih =>
    cases t with
    | file s => rfl
    | directory es =>
      rw [List.cons_append, at?_directory_cons, at?_directory_cons]
      cases Entries.get? es name with
      | none => rfl
      | some below => exact ih below

theorem kindAt?_append (h : t.at? p = some u) (q : Place) : t.kindAt? (p ++ q) = u.kindAt? q := by
  unfold kindAt?
  rw [at?_append, h]
  rfl

/-- What is a directory has entries. -/
theorem at?_of_directory (h : t.kindAt? p = some .directory) : ∃ es, t.at? p = some (directory es) := by
  obtain ⟨u, hu, kind⟩ := Option.map_eq_some_iff.mp h
  cases u with
  | file s => cases kind
  | directory es => exact ⟨es, hu⟩

theorem kindAt?_of_at? (h : t.at? p = some u) : t.kindAt? p = some u.kind := by
  unfold kindAt?
  rw [h]
  rfl

theorem kindAt?_eq_none : t.kindAt? p = none ↔ t.at? p = none := Option.map_eq_none_iff

/-- What has something below it is a directory. -/
theorem directory_above (h : t.kindAt? (p ++ q) = some k) (below : q ≠ []) : t.kindAt? p = some .directory := by
  obtain ⟨n, q, rfl⟩ := List.exists_cons_of_ne_nil below
  cases hp : t.at? p with
  | none =>
    unfold kindAt? at h
    rw [at?_append, hp] at h
    cases h
  | some u =>
    rw [kindAt?_append hp] at h
    cases u with
    | file s => cases h
    | directory es => exact kindAt?_of_at? hp

theorem nothing_below (h : t.kindAt? p ≠ some .directory) (below : q ≠ []) : t.kindAt? (p ++ q) = none := by
  by_contra something
  obtain ⟨k, hk⟩ := Option.ne_none_iff_exists'.mp something
  exact h (directory_above hk below)

/-- The directory that a directory is in is there. -/
theorem directory_dropLast (h : t.kindAt? p = some k) (h' : p ≠ []) : t.kindAt? p.dropLast = some .directory := by
  rw [← List.dropLast_append_getLast h'] at h
  exact directory_above h (by simp)

theorem room_of_kindAt? (h : t.kindAt? p = some k) : t.Room p := by
  by_cases root : p = []
  · exact .inl root
  · exact .inr (directory_dropLast h root)

theorem room_concat (h : t.kindAt? p = some .directory) (name : String) : t.Room (p ++ [name]) :=
  .inr (by rw [List.dropLast_concat, h])

/-! ## 2. Setting -/

/-- Where there is room below a name, the name leads on, or it is the last. -/
theorem Room.inside (room : t.Room (name :: q)) :
    ∃ es, t = directory es ∧ ((∃ below, Entries.get? es name = some below ∧ below.Room q) ∨
      (Entries.get? es name = none ∧ q = [])) := by
  have above : t.kindAt? (name :: q).dropLast = some .directory := room.resolve_left (by simp)
  cases t with
  | file s => cases q <;> simp at above
  | directory es =>
    refine ⟨es, rfl, ?_⟩
    cases q with
    | nil =>
      cases h : Entries.get? es name with
      | none => exact .inr ⟨rfl, rfl⟩
      | some below => exact .inl ⟨below, rfl, .inl rfl⟩
    | cons n q =>
      rw [List.dropLast_cons_of_ne_nil (by simp), kindAt?_directory_cons] at above
      obtain ⟨below, hb, above⟩ := Option.bind_eq_some_iff.mp above
      exact .inl ⟨below, hb, .inr above⟩

theorem set_some {below : FileTree} (h : Entries.get? es name = some below) :
    (directory es).set new (name :: q) = directory (Entries.put es name (below.set new q)) := by
  rw [set.eq_def]
  simp only [h]

theorem set_none (h : Entries.get? es name = none) :
    (directory es).set new [name] = directory (Entries.put es name new) := by
  rw [set.eq_def]
  simp only [h]

/-- What is set at a place is there with all that is in it. -/
theorem at?_set (room : t.Room p) (new : FileTree) (q : Place) : (t.set new p).at? (p ++ q) = new.at? q := by
  induction p generalizing t with
  | nil => rfl
  | cons name p ih =>
    obtain ⟨es, rfl, ⟨below, hb, room⟩ | ⟨hb, rfl⟩⟩ := room.inside
    · rw [set_some hb, List.cons_append, at?_directory_cons, Entries.get?_put, if_pos rfl]
      exact ih room
    · rw [set_none hb, List.cons_append, at?_directory_cons, Entries.get?_put, if_pos rfl]
      rfl

/-- Nothing changes besides what is set. -/
theorem kindAt?_set_aside (room : t.Room p) (aside : ¬p <+: q) : (t.set new p).kindAt? q = t.kindAt? q := by
  induction p generalizing t q with
  | nil => exact absurd List.nil_prefix aside
  | cons name p ih =>
    obtain ⟨es, rfl, hb⟩ := room.inside
    obtain ⟨es', same⟩ : ∃ es', (directory es).set new (name :: p) = directory es' := by
      rcases hb with ⟨below, hb, -⟩ | ⟨hb, rfl⟩
      · exact ⟨_, set_some hb⟩
      · exact ⟨_, set_none hb⟩
    cases q with
    | nil => simp [same]
    | cons n q =>
      by_cases here : name = n
      · subst here
        have further : ¬p <+: q := fun h => aside ((List.prefix_cons_inj name).mpr h)
        rcases hb with ⟨below, hb, room⟩ | ⟨hb, rfl⟩
        · rw [set_some hb, kindAt?_directory_cons, kindAt?_directory_cons, Entries.get?_put, if_pos rfl, hb]
          exact ih room further
        · exact absurd List.nil_prefix further
      · rcases hb with ⟨below, hb, -⟩ | ⟨hb, rfl⟩
        · rw [set_some hb, kindAt?_directory_cons, kindAt?_directory_cons, Entries.get?_put, if_neg here]
        · rw [set_none hb, kindAt?_directory_cons, kindAt?_directory_cons, Entries.get?_put, if_neg here]

theorem kindAt?_set (room : t.Room p) (new : FileTree) (q : Place) :
    (t.set new p).kindAt? (p ++ q) = new.kindAt? q := by
  unfold kindAt?
  rw [at?_set room]

/-- Where there was no directory before, and what is set has nothing in it, just its place changes. -/
theorem kindAt?_set_leaf (room : t.Room p) (free : t.kindAt? p ≠ some .directory)
    (leaf : ∀ q, q ≠ [] → new.kindAt? q = none) (q : Place) :
    (t.set new p).kindAt? q = if q = p then some new.kind else t.kindAt? q := by
  by_cases inside : p <+: q
  · obtain ⟨q, rfl⟩ := inside
    rw [kindAt?_set room]
    by_cases here : q = []
    · simp [here]
    · rw [leaf q here, if_neg (by simpa using here), nothing_below free here]
  · have other : q ≠ p := fun same => inside (same ▸ List.prefix_rfl)
    rw [kindAt?_set_aside room inside, if_neg other]

theorem kindAt?_set_file (room : t.Room p) (free : t.kindAt? p ≠ some .directory) (s : String) (q : Place) :
    (t.set (file s) p).kindAt? q = if q = p then some (.file s) else t.kindAt? q := by
  refine kindAt?_set_leaf room free (fun q hq => ?_) q
  obtain ⟨n, q, rfl⟩ := List.exists_cons_of_ne_nil hq
  rfl

theorem kindAt?_set_directory (room : t.Room p) (free : t.kindAt? p = none) (q : Place) :
    (t.set (directory []) p).kindAt? q = if q = p then some .directory else t.kindAt? q := by
  refine kindAt?_set_leaf room (by simp [free]) (fun q hq => ?_) q
  obtain ⟨n, q, rfl⟩ := List.exists_cons_of_ne_nil hq
  rfl

/-! ## 3. Removing -/

/-- A file that is removed is gone, and nothing else. -/
theorem kindAt?_remove (h : t.kindAt? p = some (.file s)) (below : p ≠ []) (q : Place) :
    (t.remove p).kindAt? q = if q = p then none else t.kindAt? q := by
  induction p generalizing t q with
  | nil => exact absurd rfl below
  | cons name p ih =>
    cases t with
    | file text => cases h
    | directory es =>
      rw [kindAt?_directory_cons] at h
      obtain ⟨inner, hi, h⟩ := Option.bind_eq_some_iff.mp h
      by_cases last : p = []
      · subst last
        rw [remove]
        cases q with
        | nil => simp
        | cons n q =>
          rw [kindAt?_directory_cons, kindAt?_directory_cons, Entries.get?_erase]
          by_cases here : name = n
          · subst here
            have leaf : q ≠ [] → inner.kindAt? q = none := fun hq =>
              nothing_below (t := inner) (p := []) (by simp only [h]; simp) hq
            by_cases hq : q = []
            · simp [hq]
            · simp [hi, leaf hq]
          · simp [here, Ne.symm here]
      · obtain ⟨n', p, rfl⟩ := List.exists_cons_of_ne_nil last
        have removed : (directory es).remove (name :: n' :: p) =
            directory (Entries.put es name (inner.remove (n' :: p))) := by rw [remove, hi]
        rw [removed]
        cases q with
        | nil => simp
        | cons n q =>
          rw [kindAt?_directory_cons, kindAt?_directory_cons, Entries.get?_put]
          by_cases here : name = n
          · subst here
            simpa [hi] using ih h last q
          · simp [here, Ne.symm here]

end FileTree

end Artboard
